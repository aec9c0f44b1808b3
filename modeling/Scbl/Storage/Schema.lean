import Scbl.Config
import Mathlib.Data.List.Nodup

/-!
# The tables of the session store

The tables the migrations of the storage create, with the columns the code reads back. A table is the list of its rows in the
order of their row ids. `Tables.Keys` and `Tables.References` are the constraints of the schema: primary keys, `UNIQUE`, and
foreign keys, which are enforced. A `Database` is a value of the tables that meets them.

Time counts seconds, which is what `CURRENT_TIMESTAMP` resolves.
-/

namespace Scbl.Storage

/-- A point in time, in seconds. -/
abbrev Time : Type := Nat

/-- A row of `users`. -/
structure UserRow where
  id : Nat
  username : Text
  password : Option Text
  passwordHash : Option Text
  ubiId : Option Text
  isOnline : Bool := false
  lastApiSeenAt : Option Time := none
  deriving DecidableEq, Repr

/-- A row of `game_sessions`. -/
structure GameSessionRow where
  id : Nat
  typeId : Nat
  attributes : Option Text
  creatorId : Nat
  destroyedAt : Option Time := none
  deriving DecidableEq, Repr

/-- A row of `participants`. -/
structure ParticipantRow where
  gameId : Nat
  userId : Nat
  deriving DecidableEq, Repr

/-- A row of `station_urls`. -/
structure StationUrlRow where
  userId : Nat
  url : Text
  deriving DecidableEq, Repr

/-- A row of `user_sessions`. -/
structure UserSessionRow where
  id : Text
  userId : Nat
  deriving DecidableEq, Repr

/-- A row of `invites`, with its implicit row id. The columns no `INSERT` leaves out are not optional. -/
structure InviteRow where
  rowid : Nat
  sender : Nat
  receiver : Nat
  created : Time
  sessionType : Nat
  sessionId : Nat
  deliveredAt : Option Time := none
  consumedAt : Option Time := none
  expiresAt : Time
  kind : Nat
  acceptedAt : Option Time := none
  deliveryCount : Nat := 0
  partyId : Option Nat
  deriving DecidableEq, Repr

/-- A row of `parties`. -/
structure PartyRow where
  id : Nat
  leaderId : Nat
  deriving DecidableEq, Repr

/-- A row of `party_members`. -/
structure PartyMemberRow where
  userId : Nat
  partyId : Nat
  deriving DecidableEq, Repr

/-- The tables. `partySequence` is the counter behind `AUTOINCREMENT` of `parties`. `inviteLog` is a history that no code reads:
every row ever inserted into `invites`, in order. -/
structure Tables where
  users : List UserRow
  gameSessions : List GameSessionRow
  participants : List ParticipantRow
  stationUrls : List StationUrlRow
  userSessions : List UserSessionRow
  invites : List InviteRow
  parties : List PartyRow
  partyMembers : List PartyMemberRow
  partySequence : Nat
  inviteLog : List InviteRow

namespace Tables

/-- The primary keys and the `UNIQUE` constraints. -/
structure Keys (t : Tables) : Prop where
  users : (t.users.map (·.id)).Nodup
  usernames : (t.users.map (·.username)).Nodup
  ubiIds : (t.users.filterMap (·.ubiId)).Nodup
  gameSessions : (t.gameSessions.map (·.id)).Nodup
  participants : t.participants.Nodup
  stationUrls : t.stationUrls.Nodup
  userSessions : (t.userSessions.map (·.id)).Nodup
  invites : (t.invites.map (·.rowid)).Nodup
  parties : (t.parties.map (·.id)).Nodup
  leaders : (t.parties.map (·.leaderId)).Nodup
  partyMembers : (t.partyMembers.map (·.userId)).Nodup

/-- A user exists. -/
def HasUser (t : Tables) (userId : Nat) : Prop := userId ∈ t.users.map (·.id)

/-- A party exists. -/
def HasParty (t : Tables) (partyId : Nat) : Prop := partyId ∈ t.parties.map (·.id)

instance (t : Tables) (userId : Nat) : Decidable (t.HasUser userId) := inferInstanceAs (Decidable (_ ∈ _))

instance (t : Tables) (partyId : Nat) : Decidable (t.HasParty partyId) := inferInstanceAs (Decidable (_ ∈ _))

/-- The foreign keys. -/
structure References (t : Tables) : Prop where
  creator : ∀ g ∈ t.gameSessions, t.HasUser g.creatorId
  participantGame : ∀ p ∈ t.participants, p.gameId ∈ t.gameSessions.map (·.id)
  participantUser : ∀ p ∈ t.participants, t.HasUser p.userId
  stationUrl : ∀ u ∈ t.stationUrls, t.HasUser u.userId
  userSession : ∀ u ∈ t.userSessions, t.HasUser u.userId
  sender : ∀ i ∈ t.invites, t.HasUser i.sender
  receiver : ∀ i ∈ t.invites, t.HasUser i.receiver
  leader : ∀ p ∈ t.parties, t.HasUser p.leaderId
  member : ∀ m ∈ t.partyMembers, t.HasUser m.userId
  memberParty : ∀ m ∈ t.partyMembers, t.HasParty m.partyId

instance (t : Tables) : Decidable t.Keys :=
  decidable_of_iff
    ((t.users.map (·.id)).Nodup ∧ (t.users.map (·.username)).Nodup ∧ (t.users.filterMap (·.ubiId)).Nodup ∧
      (t.gameSessions.map (·.id)).Nodup ∧ t.participants.Nodup ∧ t.stationUrls.Nodup ∧ (t.userSessions.map (·.id)).Nodup ∧
      (t.invites.map (·.rowid)).Nodup ∧ (t.parties.map (·.id)).Nodup ∧ (t.parties.map (·.leaderId)).Nodup ∧
      (t.partyMembers.map (·.userId)).Nodup)
    ⟨fun ⟨h₁, h₂, h₃, h₄, h₅, h₆, h₇, h₈, h₉, h₁₀, h₁₁⟩ => ⟨h₁, h₂, h₃, h₄, h₅, h₆, h₇, h₈, h₉, h₁₀, h₁₁⟩,
      fun h => ⟨h.1, h.2, h.3, h.4, h.5, h.6, h.7, h.8, h.9, h.10, h.11⟩⟩

instance (t : Tables) : Decidable t.References :=
  decidable_of_iff
    ((∀ g ∈ t.gameSessions, t.HasUser g.creatorId) ∧ (∀ p ∈ t.participants, p.gameId ∈ t.gameSessions.map (·.id)) ∧
      (∀ p ∈ t.participants, t.HasUser p.userId) ∧ (∀ u ∈ t.stationUrls, t.HasUser u.userId) ∧
      (∀ u ∈ t.userSessions, t.HasUser u.userId) ∧ (∀ i ∈ t.invites, t.HasUser i.sender) ∧
      (∀ i ∈ t.invites, t.HasUser i.receiver) ∧ (∀ p ∈ t.parties, t.HasUser p.leaderId) ∧
      (∀ m ∈ t.partyMembers, t.HasUser m.userId) ∧ (∀ m ∈ t.partyMembers, t.HasParty m.partyId))
    ⟨fun ⟨h₁, h₂, h₃, h₄, h₅, h₆, h₇, h₈, h₉, h₁₀⟩ => ⟨h₁, h₂, h₃, h₄, h₅, h₆, h₇, h₈, h₉, h₁₀⟩,
      fun h => ⟨h.1, h.2, h.3, h.4, h.5, h.6, h.7, h.8, h.9, h.10⟩⟩

end Tables

/-- Tables that meet the constraints of the schema. -/
structure Database extends Tables where
  keys : toTables.Keys
  references : toTables.References

/-- Why a statement or an operation fails. -/
inductive StorageError where
  /-- A `UNIQUE` or a primary key constraint. -/
  | unique
  /-- A foreign key constraint. -/
  | foreignKey
  /-- A `NULL` where the code decodes a text. -/
  | unexpectedNull
  /-- Neither a password nor a hash is stored for the user. -/
  | passwordNotSet
  /-- Both a password and a hash are stored for the user. -/
  | passwordAmbiguous
  /-- The stored hash cannot be parsed. -/
  | passwordHashParsing
  deriving DecidableEq, Repr

/-- The engine accepts the outcome of a statement that meets the constraints: unique keys are checked row by row, foreign keys at
the end of the statement. -/
def Tables.check (t : Tables) : Except StorageError Database :=
  if hk : t.Keys then
    if hr : t.References then .ok { t with keys := hk, references := hr } else .error .foreignKey
  else .error .unique

/-- A statement whose outcome meets the constraints is accepted. -/
theorem Tables.check_ok {t : Tables} (hk : t.Keys) (hr : t.References) :
    t.check = .ok { t with keys := hk, references := hr } := by
  rw [Tables.check, dif_pos hk, dif_pos hr]

/-- An accepted statement leaves the tables it computed. -/
theorem Tables.toTables_of_check {t : Tables} {db : Database} (h : t.check = .ok db) : db.toTables = t := by
  unfold Tables.check at h
  split at h
  · split at h
    · cases h; rfl
    · cases h
  · cases h

end Scbl.Storage
