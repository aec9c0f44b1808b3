import Scbl.Storage.Schema
import Scbl.Storage.Attributes

/-!
# The statements of the session store

What each SQL statement of the storage computes from the tables, before the engine checks the constraints. Deleting a party
deletes its members by cascade; deleting a participant fires the trigger `scbl_party_member_leave_lobby` for every row.
-/

namespace Scbl.Storage

/-- The largest of a list of ids, 0 when there is none. -/
def maxId (ids : List Nat) : Nat := ids.foldr max 0

/-- No id is larger than the largest. -/
theorem le_maxId {ids : List Nat} {n : Nat} (h : n ∈ ids) : n ≤ maxId ids := by
  induction ids with
  | nil => nomatch h
  | cons a ids ih =>
    rcases List.mem_cons.mp h with rfl | h
    · exact le_max_left _ _
    · exact le_trans (ih h) (le_max_right _ _)

/-- The id after the largest is new. -/
theorem maxId_succ_notMem (ids : List Nat) : maxId ids + 1 ∉ ids :=
  fun h => absurd (le_maxId h) (Nat.not_succ_le_self _)

namespace Tables

/-! ## Parties -/

/-- The id of the next party: `AUTOINCREMENT` never hands out an id twice. -/
def nextPartyId (t : Tables) : Nat := max t.partySequence (maxId (t.parties.map (·.id))) + 1

/-- `INSERT INTO parties (leader_id)`. -/
def insertParty (t : Tables) (leaderId : Nat) : Tables :=
  { t with parties := t.parties ++ [{ id := t.nextPartyId, leaderId }], partySequence := t.nextPartyId }

/-- `DELETE FROM parties`, with the cascade to the members. -/
def deleteParties (t : Tables) (p : PartyRow → Bool) : Tables :=
  { t with
    parties := t.parties.filter (fun party => !p party)
    partyMembers := t.partyMembers.filter (fun m => !t.parties.any (fun party => p party && party.id == m.partyId)) }

/-- `INSERT INTO party_members ... ON CONFLICT(user_id) DO UPDATE SET party_id`. -/
def upsertPartyMember (t : Tables) (userId partyId : Nat) : Tables :=
  { t with
    partyMembers :=
      if userId ∈ t.partyMembers.map (·.userId) then
        t.partyMembers.map (fun m => if m.userId = userId then { m with partyId } else m)
      else t.partyMembers ++ [{ userId, partyId }] }

/-- `DELETE FROM party_members`. -/
def deletePartyMembers (t : Tables) (p : PartyMemberRow → Bool) : Tables :=
  { t with partyMembers := t.partyMembers.filter (fun m => !p m) }

/-! ## Game sessions and participants -/

/-- The id of the next game session: the one after the largest. -/
def nextGameSessionId (t : Tables) : Nat := maxId (t.gameSessions.map (·.id)) + 1

/-- `INSERT INTO game_sessions (type_id, creator_id, attributes)`. -/
def insertGameSession (t : Tables) (typeId creatorId : Nat) (attributes : Text) : Tables :=
  { t with
    gameSessions := t.gameSessions ++ [{ id := t.nextGameSessionId, typeId, attributes := some attributes, creatorId }] }

/-- `UPDATE game_sessions`. -/
def updateGameSessions (t : Tables) (p : GameSessionRow → Bool) (f : GameSessionRow → GameSessionRow) : Tables :=
  { t with gameSessions := t.gameSessions.map (fun g => if p g then f g else g) }

/-- `INSERT OR IGNORE INTO participants`. -/
def insertParticipant (t : Tables) (gameId userId : Nat) : Tables :=
  if { gameId, userId } ∈ t.participants then t else { t with participants := t.participants ++ [{ gameId, userId }] }

/-- A session with an id is a lobby, to the trigger. -/
def isLobby (t : Tables) (gameId : Nat) : Bool := t.gameSessions.any (fun lobby => lobby.id = gameId ∧ likeLobby lobby.attributes)

/-- A user takes part in an active game room, to the trigger. -/
def inGameRoom (t : Tables) (userId : Nat) : Bool :=
  t.participants.any (fun current => current.userId = userId ∧
    t.gameSessions.any (fun session =>
      session.id = current.gameId ∧ session.destroyedAt = none ∧ likeGameRoom session.attributes))

/-- The trigger `scbl_party_member_leave_lobby`, after a participant was deleted. -/
def partyMemberLeaveLobby (t : Tables) (old : ParticipantRow) : Tables :=
  if t.isLobby old.gameId && !t.inGameRoom old.userId then
    (t.deleteParties (·.leaderId = old.userId)).deletePartyMembers (·.userId = old.userId)
  else t

/-- Delete one participant. -/
def deleteParticipant (t : Tables) (old : ParticipantRow) : Tables :=
  { t with participants := t.participants.filter (· ≠ old) }.partyMemberLeaveLobby old

/-- `DELETE FROM participants`, row by row. -/
def deleteParticipants (t : Tables) (p : ParticipantRow → Bool) : Tables :=
  (t.participants.filter p).foldl deleteParticipant t

/-! ## Invitations -/

/-- The row id of the next invitation: the one after the largest. -/
def nextInviteId (t : Tables) : Nat := maxId (t.invites.map (·.rowid)) + 1

/-- `INSERT INTO invites`, where `created` is the current time. -/
def insertInvite (t : Tables) (now : Time) (sender receiver kind sessionType sessionId : Nat) (partyId : Option Nat)
    (expiresAt : Time) : Tables :=
  let row : InviteRow :=
    { rowid := t.nextInviteId, sender, receiver, created := now, sessionType, sessionId, expiresAt, kind, partyId }
  { t with invites := t.invites ++ [row], inviteLog := t.inviteLog ++ [row] }

/-- `UPDATE invites`. -/
def updateInvites (t : Tables) (p : InviteRow → Bool) (f : InviteRow → InviteRow) : Tables :=
  { t with invites := t.invites.map (fun i => if p i then f i else i) }

/-- `DELETE FROM invites`. -/
def deleteInvites (t : Tables) (p : InviteRow → Bool) : Tables :=
  { t with invites := t.invites.filter (fun i => !p i) }

/-! ## Users, their sessions and their endpoints -/

/-- `INSERT INTO users (username, password_hash, ubi_id)`. -/
def insertUser (t : Tables) (username passwordHash : Text) (ubiId : Option Text) : Tables :=
  { t with
    users := t.users ++ [{ id := maxId (t.users.map (·.id)) + 1, username, password := none, passwordHash := some passwordHash, ubiId }] }

/-- `UPDATE users ... WHERE id`. -/
def updateUsers (t : Tables) (p : UserRow → Bool) (f : UserRow → UserRow) : Tables :=
  { t with users := t.users.map (fun u => if p u then f u else u) }

/-- `DELETE FROM users WHERE id`, with its cascades. A participant lost by cascade either is one of the user's own rows, whose
trigger deletes what the cascade deletes anyway, or belongs to a deleted session, which the trigger no longer finds. -/
def deleteUser (t : Tables) (userId : Nat) : Tables :=
  { t with
    users := t.users.filter (·.id ≠ userId)
    gameSessions := t.gameSessions.filter (·.creatorId ≠ userId)
    participants := t.participants.filter (fun p =>
      p.userId ≠ userId && !t.gameSessions.any (fun g => g.creatorId == userId && g.id == p.gameId))
    stationUrls := t.stationUrls.filter (·.userId ≠ userId)
    userSessions := t.userSessions.filter (·.userId ≠ userId)
    parties := t.parties.filter (·.leaderId ≠ userId)
    partyMembers := t.partyMembers.filter (fun m =>
      m.userId ≠ userId && !t.parties.any (fun party => party.leaderId == userId && party.id == m.partyId)) }

/-- `INSERT INTO user_sessions`. -/
def insertUserSession (t : Tables) (id : Text) (userId : Nat) : Tables :=
  { t with userSessions := t.userSessions ++ [{ id, userId }] }

/-- `DELETE FROM user_sessions`. -/
def deleteUserSessions (t : Tables) (p : UserSessionRow → Bool) : Tables :=
  { t with userSessions := t.userSessions.filter (fun u => !p u) }

/-- `INSERT OR IGNORE INTO station_urls`. -/
def insertStationUrl (t : Tables) (userId : Nat) (url : Text) : Tables :=
  if { userId, url } ∈ t.stationUrls then t else { t with stationUrls := t.stationUrls ++ [{ userId, url }] }

/-- `DELETE FROM station_urls`. -/
def deleteStationUrls (t : Tables) (p : StationUrlRow → Bool) : Tables :=
  { t with stationUrls := t.stationUrls.filter (fun u => !p u) }

end Tables

end Scbl.Storage
