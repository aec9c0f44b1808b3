import Scbl.Lib.Bytes
import Scbl.Lib.Transaction
import Scbl.Storage.Statements
import Mathlib.Data.List.Dedup
import Mathlib.Data.List.Sort

/-!
# The operations of the session store

The operations of `storage/mod.rs` that change the tables. Each takes the tables and gives them back with its answer; the time of
the call is `CURRENT_TIMESTAMP` of all its statements. A set of ids is a list without duplicates.
-/

namespace Scbl.Storage

open Scbl.Lib

/-- A part of an operation that answers with a `ρ`. -/
abbrev StorageTx (ρ : Type) := Tx Database StorageError ρ

/-- An operation: the tables after it, and its answer. -/
abbrev Operation (ρ : Type) := Database → Database × Except StorageError ρ

section Sql

variable {ρ α : Type}

/-- Execute a statement. -/
def statement (f : Tables → Tables) : StorageTx ρ Unit := execute (fun db => (f db.toTables).check)

/-- The result of a query. -/
def query (f : Tables → α) : StorageTx ρ α := select (fun db => f db.toTables)

/-- Decode a text column that may be `NULL`. -/
def decodeText : Option Text → StorageTx ρ Text
  | some text => pure text
  | none => abort .unexpectedNull

end Sql

/-- `ORDER BY id`. -/
def orderIds (ids : List Nat) : List Nat := ids.insertionSort (· ≤ ·)

/-! ## Kinds of invitations -/

def INVITE_KIND_PRIVATE_ROOM : Nat := 1
def INVITE_KIND_LOBBY_PARTY : Nat := 2
def INVITE_KIND_PARTY_FOLLOW : Nat := 3
def INVITE_KIND_LOBBY_RESTORE : Nat := 4

/-! ## Users -/

/-- Why a login is refused. -/
inductive LoginError where
  | notFound | invalidPassword
  deriving DecidableEq, Repr

/-- The password hash: whether a password verifies against a stored hash, and `none` when the hash cannot be parsed. -/
structure Argon2 where
  verify : Text → Text → Option Bool

/-- Whether a password is the one stored for a user. -/
def verifyPassword (argon2 : Argon2) (user : UserRow) (password : Text) : Except StorageError Bool :=
  match user.password, user.passwordHash with
  | none, none => .error .passwordNotSet
  | some _, some _ => .error .passwordAmbiguous
  | some dbPassword, none => .ok (dbPassword = password)
  | none, some passwordHash =>
    match argon2.verify passwordHash password with
    | none => .error .passwordHashParsing
    | some verified => .ok verified

def loginUser (argon2 : Argon2) (username password : Text) : Operation (Except LoginError Nat) := transaction do
  match ← query (fun t => t.users.find? (·.username = username)) with
  | none => pure (.error .notFound)
  | some user =>
    match verifyPassword argon2 user password with
    | .error e => abort e
    | .ok false => pure (.error .invalidPassword)
    | .ok true => do
      statement (·.updateUsers (·.id = user.id) ({ · with isOnline := true }))
      pure (.ok user.id)

def touchApiPresence (now : Time) (userId : Nat) : Operation Unit := transaction
  (statement (·.updateUsers (·.id = userId) ({ · with lastApiSeenAt := some now })))

def registerUserUnsafe (username passwordHash : Text) (ubiId : Option Text) : Operation Unit := transaction
  (statement (·.insertUser username passwordHash ubiId))

/-- The upper-case hexadecimal digits of a key. -/
def hexKey (key : Bytes) : Text := key.flatMap (fun c => [Nat.digitChar (c.toNat / 16), Nat.digitChar (c.toNat % 16)].map Char.toUpper)

def createUserSession (userId : Nat) (key : Bytes) : Operation Unit := transaction do
  statement (·.insertUserSession (hexKey key) userId)
  statement (·.updateUsers (·.id = userId) ({ · with isOnline := true }))

def deleteUser (userId : Nat) : Operation Unit := transaction (statement (·.deleteUser userId))

def registerUrls (userId : Nat) (urls : List Text) : Operation Unit := transaction do
  statement (·.deleteStationUrls (·.userId = userId))
  urls.dedup.forM (fun url => statement (·.insertStationUrl userId url))

/-! ## Game sessions -/

/-- The active session with a type and an id. -/
def Tables.activeSession (t : Tables) (typeId sessionId : Nat) : Option GameSessionRow :=
  t.gameSessions.find? (fun g => g.id = sessionId ∧ g.typeId = typeId ∧ g.destroyedAt = none)

/-- The participants of a session, in the order of their ids. -/
def Tables.participantIds (t : Tables) (gameId : Nat) : List Nat :=
  orderIds ((t.participants.filter (·.gameId = gameId)).map (·.userId))

/-- A user is a participant of a session. -/
def Tables.isParticipant (t : Tables) (gameId userId : Nat) : Bool := { gameId, userId } ∈ t.participants

/-- A user has registered an endpoint. -/
def Tables.hasEndpoint (t : Tables) (userId : Nat) : Bool := t.stationUrls.any (·.userId = userId)

def reconcileGameSession {ρ : Type} (now : Time) (typeId sessionId : Nat) : StorageTx ρ (Option Nat) := do
  match ← query (·.activeSession typeId sessionId) with
  | none => pure none
  | some session =>
    match ← query (·.participantIds sessionId) with
    | [] => do
      statement (·.updateGameSessions (fun g => g.id = sessionId ∧ g.typeId = typeId ∧ g.destroyedAt = none)
        ({ · with destroyedAt := some now }))
      pure none
    | newCreatorId :: rest =>
      if session.creatorId ∈ newCreatorId :: rest then pure (some session.creatorId)
      else do
        statement (·.updateGameSessions (fun g => g.id = sessionId ∧ g.typeId = typeId ∧ g.destroyedAt = none)
          ({ · with creatorId := newCreatorId }))
        pure (some newCreatorId)

/-- The active sessions a user created or takes part in. -/
def Tables.affectedSessions (t : Tables) (userId : Nat) : List (Nat × Nat) :=
  (t.gameSessions.filter (fun g =>
    g.destroyedAt = none ∧ (g.creatorId = userId ∨ { gameId := g.id, userId } ∈ t.participants))).map (fun g => (g.typeId, g.id))

def cleanupUserGameState {ρ : Type} (now : Time) (userId : Nat) : StorageTx ρ Unit := do
  let affectedSessions ← query (·.affectedSessions userId)
  statement (·.deleteParties (·.leaderId = userId))
  statement (·.deletePartyMembers (·.userId = userId))
  statement (·.deleteParticipants (·.userId = userId))
  statement (·.deleteStationUrls (·.userId = userId))
  statement (·.deleteUserSessions (·.userId = userId))
  statement (·.updateUsers (·.id = userId) ({ · with isOnline := false }))
  affectedSessions.forM (fun (typeId, sessionId) => do
    let _ ← reconcileGameSession now typeId sessionId)

/-- `delete_user_session`, whose body is that of `cleanup_user_game_state_async`. -/
def deleteUserSession (now : Time) (userId : Nat) : Operation Unit := transaction (cleanupUserGameState now userId)

/-- The API has seen a user within the last 15 seconds. -/
def Tables.recentApi (t : Tables) (now : Time) (userId : Nat) : Bool :=
  t.users.any (fun u => u.id = userId ∧ u.lastApiSeenAt.any (fun seen => now ≤ seen + 15))

def closeSecureSession (now : Time) (userId : Nat) : Operation Bool := transaction do
  let recentApi ← query (·.recentApi now userId)
  statement (·.deleteUserSessions (·.userId = userId))
  statement (·.updateUsers (·.id = userId) ({ · with isOnline := false }))
  if recentApi then pure true
  else do
    cleanupUserGameState now userId
    pure false

/-- The users whose secure session and API presence are gone and who still have an endpoint or take part in a session. -/
def Tables.staleUsers (t : Tables) (now : Time) : List Nat :=
  (t.users.filter (fun u => !u.isOnline && u.lastApiSeenAt.all (fun seen => seen + 15 < now) &&
    (t.hasEndpoint u.id || t.participants.any (·.userId = u.id)))).map (·.id)

def cleanupStaleApiSessions (now : Time) : Operation Unit := transaction do
  let staleUsers ← query (·.staleUsers now)
  staleUsers.forM (cleanupUserGameState now)

/-- `invalidate_sessions`. Its statements are not in a transaction, but none of them can fail. -/
def invalidateSessions (now : Time) : Operation Unit := transaction do
  statement (·.deleteParties (fun _ => true))
  statement (·.deletePartyMembers (fun _ => true))
  statement (·.deleteStationUrls (fun _ => true))
  statement (·.deleteUserSessions (fun _ => true))
  statement (·.updateGameSessions (fun g => g.destroyedAt = none) ({ · with destroyedAt := some now }))
  statement (·.updateUsers (fun _ => true) ({ · with isOnline := false }))

/-! ## Parties -/

/-- The party a user leads. -/
def Tables.partyOfLeader (t : Tables) (leaderId : Nat) : Option Nat := (t.parties.find? (·.leaderId = leaderId)).map (·.id)

/-- The party of a leader, inserted when there is none. -/
def findOrInsertParty {ρ : Type} (leaderId : Nat) : StorageTx ρ Nat := do
  match ← query (·.partyOfLeader leaderId) with
  | some partyId => pure partyId
  | none => do
    let partyId ← query (·.nextPartyId)
    statement (·.insertParty leaderId)
    pure partyId

def ensurePartyForLeader {ρ : Type} (leaderId : Nat) : StorageTx ρ Nat := do
  let partyId ← findOrInsertParty leaderId
  statement (·.upsertPartyMember leaderId partyId)
  pure partyId

/-- An invitation to follow a party into a session that can still be accepted. -/
def InviteRow.isPendingFollow (i : InviteRow) (now : Time) (partyId sessionType sessionId : Nat) : Bool :=
  i.partyId = some partyId ∧ i.sessionType = sessionType ∧ i.sessionId = sessionId ∧ now < i.expiresAt

/-- An invitation to follow another party, into another session, or one that has expired. Nothing is known of the party of an
invitation that names none, as SQL compares `NULL`. -/
def InviteRow.isOtherFollow (i : InviteRow) (now : Time) (partyId sessionType sessionId : Nat) : Bool :=
  i.partyId.any (· ≠ partyId) ∨ i.sessionType ≠ sessionType ∨ i.sessionId ≠ sessionId ∨ i.expiresAt ≤ now

/-- Invite one member of the party to the session, unless an invitation to it is pending; any other pending one is dropped. -/
def queuePartyFollowInvite {ρ : Type} (now : Time) (leaderId sessionType sessionId partyId receiverId : Nat) :
    StorageTx ρ Unit := do
  statement (·.deleteInvites (fun i => i.receiver = receiverId ∧ i.kind = INVITE_KIND_PARTY_FOLLOW ∧ i.consumedAt = none ∧
    i.isOtherFollow now partyId sessionType sessionId))
  if ← query (·.invites.any (fun i => i.receiver = receiverId ∧ i.kind = INVITE_KIND_PARTY_FOLLOW ∧ i.consumedAt = none ∧
      i.isPendingFollow now partyId sessionType sessionId)) then pure ()
  else statement (·.insertInvite now leaderId receiverId INVITE_KIND_PARTY_FOLLOW sessionType sessionId (some partyId) (now + 300))

def queuePartyFollowInvites {ρ : Type} (now : Time) (leaderId sessionType sessionId : Nat) : StorageTx ρ Unit := do
  match ← query (·.partyOfLeader leaderId) with
  | none => pure ()
  | some partyId =>
    if ← query (·.isParticipant sessionId leaderId) then
      let members ← query (fun t =>
        orderIds ((t.partyMembers.filter (fun m => m.partyId = partyId ∧ m.userId ≠ leaderId)).map (·.userId)))
      members.forM (queuePartyFollowInvite now leaderId sessionType sessionId partyId)
    else pure ()

def createGameSession (now : Time) (userId typeId : Nat) (attributes : Text) : Operation Nat := transaction do
  let id ← query (·.nextGameSessionId)
  statement (·.insertGameSession typeId userId attributes)
  statement (·.insertParticipant id userId)
  (if isGameRoomAttributes attributes then queuePartyFollowInvites now userId typeId (id % 2 ^ 32) else pure ())
  pure (id % 2 ^ 32)

/-- `ORDER BY created DESC, rowid DESC LIMIT 1`. -/
def newest (invites : List InviteRow) : Option InviteRow :=
  (invites.insertionSort (fun i j => j.created < i.created ∨ (j.created = i.created ∧ j.rowid ≤ i.rowid))).head?

/-- The invitation to a lobby a user has accepted and a join of the session consumes: the party it names, and its sender. -/
def Tables.acceptedLobbyInvite (t : Tables) (now : Time) (userId typeId sessionId : Nat) : Option (Nat × Nat) :=
  (newest (t.invites.filter (fun i =>
    i.receiver = userId ∧ (i.kind = INVITE_KIND_LOBBY_PARTY ∨ i.kind = INVITE_KIND_LOBBY_RESTORE) ∧ i.sessionType = typeId ∧
      i.sessionId = sessionId ∧ i.partyId ≠ none ∧ i.acceptedAt ≠ none ∧ i.consumedAt = none ∧ now < i.expiresAt))).bind
    (fun i => i.partyId.map (fun partyId => (partyId, i.sender)))

/-- The step of a join that moves the user to the party of the invitation it accepted. -/
def joinInvitingParty {ρ : Type} (now : Time) (userId typeId sessionId : Nat) : StorageTx ρ Unit := do
  match ← query (·.acceptedLobbyInvite now userId typeId sessionId) with
  | none => pure ()
  | some (partyId, _) => do
    statement (·.deleteParties (fun p => p.leaderId = userId ∧ p.id ≠ partyId))
    statement (·.upsertPartyMember userId partyId)

def joinGameSessionUnbounded (now : Time) (userId typeId sessionId : Nat) : Operation Bool := transaction do
  match ← query (·.activeSession typeId sessionId) with
  | none => rollback false
  | some session => do
    let attributes ← decodeText session.attributes
    statement (·.insertParticipant sessionId userId)
    joinInvitingParty now userId typeId sessionId
    statement (·.updateInvites (fun i => i.receiver = userId ∧ i.sessionType = typeId ∧ i.sessionId = sessionId ∧
      i.acceptedAt ≠ none ∧ i.consumedAt = none ∧ now < i.expiresAt) ({ · with consumedAt := some now }))
    (if isGameRoomAttributes attributes then queuePartyFollowInvites now userId typeId sessionId else pure ())
    pure true

def leaveGameSession (now : Time) (userId typeId sessionId : Nat) : Operation Unit := transaction do
  statement (fun t => t.deleteParticipants (fun p =>
    p.gameId = sessionId ∧ p.userId = userId ∧ (t.activeSession typeId sessionId).isSome))
  let _ ← reconcileGameSession now typeId sessionId

def migrateGameSessionHost (userId typeId sessionId : Nat) : Operation Bool := transaction do
  let isParticipant ← query (fun t => (t.activeSession typeId sessionId).isSome && t.isParticipant sessionId userId)
  if isParticipant then do
    let affected ← query (fun t => t.gameSessions.countP (fun g => g.id = sessionId ∧ g.typeId = typeId ∧ g.destroyedAt = none))
    statement (·.updateGameSessions (fun g => g.id = sessionId ∧ g.typeId = typeId ∧ g.destroyedAt = none)
      ({ · with creatorId := userId }))
    pure (affected = 1)
  else rollback false

def restoreAbandonedGameSessionForSplit (userId typeId sessionId : Nat) : Operation Bool := transaction do
  let affected ← query (fun t => t.gameSessions.countP (fun g =>
    g.id = sessionId ∧ g.typeId = typeId ∧ g.creatorId = userId ∧ g.destroyedAt ≠ none))
  statement (·.updateGameSessions (fun g => g.id = sessionId ∧ g.typeId = typeId ∧ g.creatorId = userId ∧ g.destroyedAt ≠ none)
    ({ · with creatorId := userId, destroyedAt := none }))
  if affected ≠ 1 then rollback false
  else do
    statement (·.insertParticipant sessionId userId)
    pure true

def updateGameSession (typeId gameId : Nat) (attributes : Text) : Operation Unit := transaction
  (statement (·.updateGameSessions (fun g => g.id = gameId ∧ g.typeId = typeId) ({ · with attributes := some attributes })))

/-- The sender of the last accepted invitation of a user to a private room. -/
def Tables.pendingInviteSender (t : Tables) (now : Time) (userId typeId sessionId : Nat) : Option Nat :=
  ((t.invites.filter (fun i =>
    i.receiver = userId ∧ (i.kind = INVITE_KIND_PRIVATE_ROOM ∨ i.kind = INVITE_KIND_PARTY_FOLLOW) ∧ i.sessionType = typeId ∧
      i.sessionId = sessionId ∧ i.acceptedAt ≠ none ∧ i.consumedAt = none ∧ now < i.expiresAt)).insertionSort
    (fun i j => j.rowid ≤ i.rowid)).head?.map (·.sender)

/-- One private participant: a user with an accepted invitation is added by the join, unless the host adds it. -/
def addPrivateParticipant {ρ : Type} (now : Time) (callerId creatorId typeId sessionId userId : Nat) : StorageTx ρ Unit := do
  let pendingInviteSender ← query (·.pendingInviteSender now userId typeId sessionId)
  let alreadyJoined ← query (·.isParticipant sessionId userId)
  match pendingInviteSender, alreadyJoined with
  | some inviteSender, false =>
    if callerId = creatorId ∧ inviteSender = callerId then statement (·.insertParticipant sessionId userId)
    else pure ()
  | _, _ => statement (·.insertParticipant sessionId userId)

def addParticipants (now : Time) (callerId typeId sessionId : Nat) (privateParticipants publicParticipants : List Nat) :
    Operation Unit :=
  transaction do
    if privateParticipants = [] ∧ publicParticipants = [] then pure ()
    else do
      match ← query (·.activeSession typeId sessionId) with
      | none => rollback ()
      | some session => do
        publicParticipants.dedup.forM (fun userId => statement (·.insertParticipant sessionId userId))
        privateParticipants.dedup.forM (addPrivateParticipant now callerId session.creatorId typeId sessionId)
        let _ ← reconcileGameSession now typeId sessionId

def removeParticipants (now : Time) (typeId sessionId : Nat) (participants : List Nat) : Operation Unit := transaction do
  participants.dedup.forM (fun participantId =>
    statement (·.deleteParticipants (fun p => p.gameId = sessionId ∧ p.userId = participantId)))
  let _ ← reconcileGameSession now typeId sessionId

/-- The other active sessions of a type that a host takes part in and has an endpoint for, the last one first. -/
def Tables.lobbyCandidates (t : Tables) (creatorId typeId sessionId : Nat) : List GameSessionRow :=
  (t.gameSessions.filter (fun g =>
    g.creatorId = creatorId ∧ g.typeId = typeId ∧ g.id ≠ sessionId ∧ g.destroyedAt = none ∧ t.isParticipant g.id g.creatorId ∧
      t.hasEndpoint g.creatorId)).insertionSort (fun g h => h.id ≤ g.id)

/-- Invite one participant of a deleted room back to the lobby, and count it. -/
def queueLobbyRestore {ρ : Type} (now : Time) (creatorId typeId lobbySessionId partyId queued receiverId : Nat) :
    StorageTx ρ Nat := do
  if ← query (·.isParticipant lobbySessionId receiverId) then pure queued
  else do
    statement (·.updateInvites (fun i => i.receiver = receiverId ∧ i.kind = INVITE_KIND_LOBBY_RESTORE ∧ i.consumedAt = none)
      ({ · with consumedAt := some now }))
    statement (·.insertInvite now creatorId receiverId INVITE_KIND_LOBBY_RESTORE typeId lobbySessionId (some partyId) (now + 60))
    pure (queued + 1)

def deleteGameSession (now : Time) (creatorId typeId sessionId : Nat) : Operation (Nat × Nat) := transaction do
  let owned (g : GameSessionRow) : Bool :=
    g.creatorId = creatorId ∧ g.typeId = typeId ∧ g.id = sessionId ∧ g.destroyedAt = none
  match ← query (·.gameSessions.find? owned) with
  | none => rollback (0, 0)
  | some session => do
    let deletedAttributes ← decodeText session.attributes
    let remainingParticipants ← query (fun t => (t.participantIds sessionId).filter (· ≠ creatorId))
    let deleted ← query (·.gameSessions.countP owned)
    statement (·.updateGameSessions owned ({ · with destroyedAt := some now }))
    if deleted = 0 ∨ !isGameRoomAttributes deletedAttributes ∨ remainingParticipants = [] then pure (deleted, 0)
    else do
      let lobbyCandidates ← query (·.lobbyCandidates creatorId typeId sessionId)
      if lobbyCandidates.any (·.attributes = none) then abort .unexpectedNull
      else
        match lobbyCandidates.find? (·.attributes.any isLobbySessionAttributes) with
        | none => pure (deleted, 0)
        | some lobby => do
          let partyId ← ensurePartyForLeader creatorId
          let queued ← remainingParticipants.foldlM (queueLobbyRestore now creatorId typeId lobby.id partyId) 0
          pure (deleted, queued)

/-- `delete_game_session_by_id_async`. -/
def deleteGameSessionById (now : Time) (sessionId : Nat) : Operation Unit := transaction
  (statement (·.updateGameSessions (·.id = sessionId) ({ · with destroyedAt := some now })))

/-! ## Invitations -/

/-- An invitation as the API hands it out. -/
structure Invite where
  id : Nat
  sender : Nat
  receiver : Nat
  kind : Nat
  sessionType : Nat
  sessionId : Nat
  deliveryCount : Nat
  deriving DecidableEq, Repr

/-- The invitation of a row. -/
def InviteRow.toInvite (i : InviteRow) : Invite :=
  { id := i.rowid, sender := i.sender, receiver := i.receiver, kind := i.kind, sessionType := i.sessionType,
    sessionId := i.sessionId, deliveryCount := i.deliveryCount }

/-- The sender hosts the active session from an endpoint. -/
def Tables.hostsSession (t : Tables) (senderId sessionType sessionId : Nat) : Bool :=
  t.gameSessions.any (fun g => g.id = sessionId ∧ g.typeId = sessionType ∧ g.creatorId = senderId ∧ g.destroyedAt = none ∧
    t.isParticipant g.id g.creatorId ∧ t.hasEndpoint senderId)

/-- The party an invitation to a lobby names. -/
def invitingParty {ρ : Type} (kind senderId : Nat) : StorageTx ρ (Option Nat) :=
  if kind = INVITE_KIND_LOBBY_PARTY then do
    let partyId ← ensurePartyForLeader senderId
    pure (some partyId)
  else pure none

def addInvite (now : Time) (senderId receiverId kind sessionType sessionId : Nat) : Operation (Option Nat) := transaction do
  if kind = INVITE_KIND_PRIVATE_ROOM ∨ kind = INVITE_KIND_LOBBY_PARTY then do
    let partyId ← invitingParty kind senderId
    statement (·.deleteInvites (fun i => i.consumedAt ≠ none ∨ i.expiresAt ≤ now))
    statement (·.deleteInvites (fun i => i.receiver = receiverId ∧
      (i.kind = INVITE_KIND_PRIVATE_ROOM ∨ i.kind = INVITE_KIND_LOBBY_PARTY) ∧ i.consumedAt = none))
    if ← query (·.hostsSession senderId sessionType sessionId) then do
      let inviteId ← query (·.nextInviteId)
      statement (·.insertInvite now senderId receiverId kind sessionType sessionId partyId (now + 300))
      pure (some inviteId)
    else rollback none
  else pure none

/-- The target of an invitation is an active session that its sender hosts, or takes part in when the invitation follows a party,
and whose host has an endpoint. -/
def Tables.validTarget (t : Tables) (kind sender sessionType sessionId : Nat) : Bool :=
  t.gameSessions.any (fun g => g.id = sessionId ∧ g.typeId = sessionType ∧ t.isParticipant g.id g.creatorId ∧
    (((kind = INVITE_KIND_PRIVATE_ROOM ∨ kind = INVITE_KIND_LOBBY_PARTY ∨ kind = INVITE_KIND_LOBBY_RESTORE) ∧ g.creatorId = sender) ∨
      (kind = INVITE_KIND_PARTY_FOLLOW ∧ t.isParticipant g.id sender)) ∧
    g.destroyedAt = none ∧ t.hasEndpoint g.creatorId)

def cleanupInvalidInvites {ρ : Type} (now : Time) : StorageTx ρ Unit :=
  statement (fun t => t.deleteInvites (fun i =>
    i.consumedAt ≠ none ∨ i.expiresAt ≤ now ∨ !t.validTarget i.kind i.sender i.sessionType i.sessionId))

def takeInvite (now : Time) (userId : Nat) : Operation (Option Invite) := transaction do
  cleanupInvalidInvites now
  statement (fun t => t.updateInvites (fun i => i.receiver = userId ∧ i.kind = INVITE_KIND_PARTY_FOLLOW ∧ i.acceptedAt = none ∧
    i.consumedAt = none ∧ now < i.expiresAt ∧ t.isParticipant i.sessionId i.receiver) ({ · with consumedAt := some now }))
  match ← query (fun t => newest (t.invites.filter (fun i => i.receiver = userId ∧ i.acceptedAt = none ∧ i.consumedAt = none ∧
      now < i.expiresAt ∧ i.deliveredAt.all (fun delivered => delivered + 3 ≤ now) ∧
      (i.kind ≠ INVITE_KIND_PARTY_FOLLOW ∨ i.created + 2 ≤ now)))) with
  | none => pure none
  | some row => do
    let invite := row.toInvite
    statement (·.updateInvites (·.rowid = invite.id)
      (fun i => { i with deliveredAt := some now, deliveryCount := i.deliveryCount + 1 }))
    pure (some { invite with deliveryCount := invite.deliveryCount + 1 })

def acceptInvite (now : Time) (userId inviteId : Nat) : Operation (Option Invite) := transaction do
  cleanupInvalidInvites now
  statement (·.updateInvites (fun i => i.rowid = inviteId ∧ i.receiver = userId ∧ i.consumedAt = none ∧ now < i.expiresAt)
    (fun i => { i with acceptedAt := some (i.acceptedAt.getD now) }))
  let invite ← query (fun t => (t.invites.find? (fun i => i.rowid = inviteId ∧ i.receiver = userId ∧ i.acceptedAt ≠ none ∧
    i.consumedAt = none ∧ now < i.expiresAt)).map (·.toInvite))
  match invite with
  | none => pure none
  | some invite =>
    if invite.kind = INVITE_KIND_PRIVATE_ROOM ∨ invite.kind = INVITE_KIND_PARTY_FOLLOW then do
      if ← query (·.validTarget invite.kind invite.sender invite.sessionType invite.sessionId) then pure (some invite)
      else rollback none
    else pure (some invite)

end Scbl.Storage
