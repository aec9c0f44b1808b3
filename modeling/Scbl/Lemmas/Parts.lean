import Scbl.Lemmas.Statements
import Scbl.Storage.Run

/-!
# Operations by their parts

An operation is a sequence of parts: statements that stand alone, and statements that belong together, such as the deletion of a
party and of its leader's membership. A preorder on databases that every part moves along (`Parts`) holds between the databases
before and after every operation (`Parts.step`). Three parts are left to the call they belong to, and are asked for there: the
registration of a user, what a join does to the parties, and how an invitation is marked as accepted. `Stages` are the same parts, but
for the invitations to follow a party, which are one stage, since only together they are those of a leader to its own party; `OwnStages`
leave out the invitation by hand.
-/

namespace Scbl.Storage

open Scbl.Lib

/-- What identifies an account: no update of its row changes it. -/
structure Account where
  id : Nat
  username : Text
  ubiId : Option Text
  deriving DecidableEq, Repr

/-- The account of a row. -/
def UserRow.account (u : UserRow) : Account := { id := u.id, username := u.username, ubiId := u.ubiId }

/-- The statements on neither invitations nor parties that delete no participant and register no user. -/
inductive PlainStatement : (Tables → Tables) → Prop where
  | insertGameSession (typeId creatorId : Nat) (attributes : Text) : PlainStatement (·.insertGameSession typeId creatorId attributes)
  | updateGameSessions (p : GameSessionRow → Bool) (f : GameSessionRow → GameSessionRow) :
    PlainStatement (·.updateGameSessions p f)
  | insertParticipant (gameId userId : Nat) : PlainStatement (·.insertParticipant gameId userId)
  | updateUsers (p : UserRow → Bool) (f : UserRow → UserRow) (h : ∀ u, (f u).account = u.account) :
    PlainStatement (·.updateUsers p f)
  | insertUserSession (id : Text) (userId : Nat) : PlainStatement (·.insertUserSession id userId)
  | deleteUserSessions (p : UserSessionRow → Bool) : PlainStatement (·.deleteUserSessions p)
  | insertStationUrl (userId : Nat) (url : Text) : PlainStatement (·.insertStationUrl userId url)
  | deleteStationUrls (p : StationUrlRow → Bool) : PlainStatement (·.deleteStationUrls p)

namespace PlainStatement

/-- Users appear or disappear. -/
theorem setOnline (p : UserRow → Bool) (isOnline : Bool) : PlainStatement (·.updateUsers p ({ · with isOnline })) :=
  .updateUsers p _ fun _ => rfl

/-- Users are seen at the API. -/
theorem touch (p : UserRow → Bool) (now : Time) : PlainStatement (·.updateUsers p ({ · with lastApiSeenAt := some now })) :=
  .updateUsers p _ fun _ => rfl

end PlainStatement

/-- Invitations and parties stay as they are. -/
structure Tables.SameParties (t t' : Tables) : Prop where
  invites : t'.invites = t.invites
  parties : t'.parties = t.parties
  partyMembers : t'.partyMembers = t.partyMembers
  partySequence : t'.partySequence = t.partySequence

theorem Tables.SameParties.trans {t t' t'' : Tables} (h : t.SameParties t') (h' : t'.SameParties t'') : t.SameParties t'' :=
  ⟨h'.1.trans h.1, h'.2.trans h.2, h'.3.trans h.3, h'.4.trans h.4⟩

theorem PlainStatement.sameParties {f : Tables → Tables} (hf : PlainStatement f) (t : Tables) : t.SameParties (f t) := by
  cases hf with
  | insertParticipant gameId userId =>
    simp only [Tables.insertParticipant]
    split <;> exact ⟨rfl, rfl, rfl, rfl⟩
  | insertStationUrl userId url =>
    simp only [Tables.insertStationUrl]
    split <;> exact ⟨rfl, rfl, rfl, rfl⟩
  | _ => exact ⟨rfl, rfl, rfl, rfl⟩

/-- Mark an invitation as accepted, as `accept_invite_async` does. -/
def markAccepted {ρ : Type} (now : Time) (userId inviteId : Nat) : StorageTx ρ Unit :=
  statement (·.updateInvites (fun i => i.rowid = inviteId ∧ i.receiver = userId ∧ i.consumedAt = none ∧ now < i.expiresAt)
    (fun i => { i with acceptedAt := some (i.acceptedAt.getD now) }))

/-- Every part of the operations moves along a relation. -/
structure Parts (R : Database → Database → Prop) : Prop where
  plain : ∀ {ρ : Type} {f : Tables → Tables}, PlainStatement f → Moves R (statement f : StorageTx ρ Unit)
  deleteParticipants : ∀ {ρ : Type} (p : Tables → ParticipantRow → Bool),
    Moves R (statement (fun t => t.deleteParticipants (p t)) : StorageTx ρ Unit)
  deleteUser : ∀ {ρ : Type} (userId : Nat), Moves R (statement (·.deleteUser userId) : StorageTx ρ Unit)
  leaveParty : ∀ {ρ : Type} (userId : Nat), Moves R (do
    statement (·.deleteParties (·.leaderId = userId))
    statement (·.deletePartyMembers (·.userId = userId)) : StorageTx ρ Unit)
  disband : ∀ {ρ : Type}, Moves R (do
    statement (·.deleteParties (fun _ => true))
    statement (·.deletePartyMembers (fun _ => true)) : StorageTx ρ Unit)
  deleteInvites : ∀ {ρ : Type} (p : Tables → InviteRow → Bool), Moves R (statement (fun t => t.deleteInvites (p t)) : StorageTx ρ Unit)
  consume : ∀ {ρ : Type} (now : Time) (p : Tables → InviteRow → Bool),
    Moves R (statement (fun t => t.updateInvites (p t) ({ · with consumedAt := some now })) : StorageTx ρ Unit)
  deliver : ∀ {ρ : Type} (now : Time) (inviteId : Nat),
    Moves R (statement (·.updateInvites (·.rowid = inviteId)
      (fun i => { i with deliveredAt := some now, deliveryCount := i.deliveryCount + 1 })) : StorageTx ρ Unit)
  follow : ∀ {ρ : Type} (now : Time) (leaderId sessionType sessionId partyId receiverId : Nat),
    Moves R (queuePartyFollowInvite now leaderId sessionType sessionId partyId receiverId : StorageTx ρ Unit)
  restore : ∀ {ρ : Type} (now : Time) (creatorId typeId lobbySessionId : Nat) (receivers : List Nat),
    Moves R (do
      let partyId ← ensurePartyForLeader creatorId
      receivers.foldlM (queueLobbyRestore now creatorId typeId lobbySessionId partyId) 0 : StorageTx ρ Nat)
  addInvite : ∀ (now : Time) (senderId receiverId kind sessionType sessionId : Nat) (db : Database),
    R db (addInvite now senderId receiverId kind sessionType sessionId db).1

/-- Every stage of the operations but the invitation by hand moves along a relation. -/
structure OwnStages (R : Database → Database → Prop) : Prop where
  plain : ∀ {ρ : Type} {f : Tables → Tables}, PlainStatement f → Moves R (statement f : StorageTx ρ Unit)
  deleteParticipants : ∀ {ρ : Type} (p : Tables → ParticipantRow → Bool),
    Moves R (statement (fun t => t.deleteParticipants (p t)) : StorageTx ρ Unit)
  deleteUser : ∀ {ρ : Type} (userId : Nat), Moves R (statement (·.deleteUser userId) : StorageTx ρ Unit)
  leaveParty : ∀ {ρ : Type} (userId : Nat), Moves R (do
    statement (·.deleteParties (·.leaderId = userId))
    statement (·.deletePartyMembers (·.userId = userId)) : StorageTx ρ Unit)
  disband : ∀ {ρ : Type}, Moves R (do
    statement (·.deleteParties (fun _ => true))
    statement (·.deletePartyMembers (fun _ => true)) : StorageTx ρ Unit)
  deleteInvites : ∀ {ρ : Type} (p : Tables → InviteRow → Bool), Moves R (statement (fun t => t.deleteInvites (p t)) : StorageTx ρ Unit)
  consume : ∀ {ρ : Type} (now : Time) (p : Tables → InviteRow → Bool),
    Moves R (statement (fun t => t.updateInvites (p t) ({ · with consumedAt := some now })) : StorageTx ρ Unit)
  deliver : ∀ {ρ : Type} (now : Time) (inviteId : Nat),
    Moves R (statement (·.updateInvites (·.rowid = inviteId)
      (fun i => { i with deliveredAt := some now, deliveryCount := i.deliveryCount + 1 })) : StorageTx ρ Unit)
  follow : ∀ {ρ : Type} (now : Time) (leaderId sessionType sessionId : Nat),
    Moves R (queuePartyFollowInvites now leaderId sessionType sessionId : StorageTx ρ Unit)
  restore : ∀ {ρ : Type} (now : Time) (creatorId typeId lobbySessionId : Nat) (receivers : List Nat),
    Moves R (do
      let partyId ← ensurePartyForLeader creatorId
      receivers.foldlM (queueLobbyRestore now creatorId typeId lobbySessionId partyId) 0 : StorageTx ρ Nat)

/-- Every stage of the operations moves along a relation. -/
structure Stages (R : Database → Database → Prop) : Prop extends OwnStages R where
  addInvite : ∀ (now : Time) (senderId receiverId kind sessionType sessionId : Nat) (db : Database),
    R db (addInvite now senderId receiverId kind sessionType sessionId db).1

/-- A statement moves along a relation that holds between the tables before it and those it computes. -/
theorem moves_statement_of {ρ : Type} {R : Database → Database → Prop} {f : Tables → Tables}
    (h : ∀ db db' : Database, db'.toTables = f db.toTables → R db db') : Moves R (statement f : StorageTx ρ Unit) :=
  Moves.execute fun db db' hcheck => h db db' (Tables.toTables_of_check hcheck)

/-- Decoding a text changes nothing. -/
theorem moves_decodeText {ρ : Type} {R : Database → Database → Prop} [IsPreorder Database R] (text : Option Text) :
    Moves R (decodeText text : StorageTx ρ Text) := by
  cases text with
  | none => exact Moves.abort _
  | some text => exact Moves.pure _

/-- The invitations of a party move along a relation when every one of them does. -/
theorem moves_queuePartyFollowInvites_of {ρ : Type} {R : Database → Database → Prop} [IsPreorder Database R]
    (hfollow : ∀ {ρ : Type} (now : Time) (leaderId sessionType sessionId partyId receiverId : Nat),
      Moves R (queuePartyFollowInvite now leaderId sessionType sessionId partyId receiverId : StorageTx ρ Unit))
    (now : Time) (leaderId sessionType sessionId : Nat) :
    Moves R (queuePartyFollowInvites now leaderId sessionType sessionId : StorageTx ρ Unit) := by
  refine Moves.bind (Moves.select _) fun found => ?_
  cases found with
  | none => exact Moves.pure _
  | some partyId =>
    refine Moves.bind (Moves.select _) fun joined => ?_
    split
    · exact Moves.bind (Moves.select _) fun members => Moves.forM (hfollow now leaderId _ _ _) members
    · exact Moves.pure _

namespace OwnStages

variable {R : Database → Database → Prop} [IsPreorder Database R] (stages : OwnStages R)

include stages

section

variable {ρ : Type}

theorem moves_reconcileGameSession (now : Time) (typeId sessionId : Nat) :
    Moves R (reconcileGameSession now typeId sessionId : StorageTx ρ (Option Nat)) := by
  refine Moves.bind (Moves.select _) fun found => ?_
  cases found with
  | none => exact Moves.pure _
  | some session =>
    refine Moves.bind (Moves.select _) fun participants => ?_
    cases participants with
    | nil => exact Moves.bind (stages.plain (.updateGameSessions _ _)) fun _ => Moves.pure _
    | cons newCreatorId rest =>
      simp only []
      split
      · exact Moves.pure _
      · exact Moves.bind (stages.plain (.updateGameSessions _ _)) fun _ => Moves.pure _

theorem moves_cleanupUserGameState (now : Time) (userId : Nat) :
    Moves R (cleanupUserGameState now userId : StorageTx ρ Unit) :=
  Moves.bind (Moves.select _) fun affected =>
    Moves.assoc (Moves.bind (stages.leaveParty userId) fun _ =>
      Moves.bind (stages.deleteParticipants fun _ => _) fun _ =>
      Moves.bind (stages.plain (.deleteStationUrls _)) fun _ =>
      Moves.bind (stages.plain (.deleteUserSessions _)) fun _ =>
      Moves.bind (stages.plain (.setOnline _ _)) fun _ =>
      Moves.forM (fun (typeId, sessionId) =>
        Moves.bind (stages.moves_reconcileGameSession now typeId sessionId) fun _ => Moves.pure _) affected)

theorem moves_addPrivateParticipant (now : Time) (callerId creatorId typeId sessionId userId : Nat) :
    Moves R (addPrivateParticipant now callerId creatorId typeId sessionId userId : StorageTx ρ Unit) := by
  refine Moves.bind (Moves.select _) fun pending => Moves.bind (Moves.select _) fun joined => ?_
  split
  · split
    · exact stages.plain (.insertParticipant _ _)
    · exact Moves.pure _
  · exact stages.plain (.insertParticipant _ _)

end

variable (db : Database) (now : Time)

theorem loginUser (argon2 : Argon2) (username password : Text) : R db (loginUser argon2 username password db).1 := by
  refine Moves.transaction (Moves.bind (Moves.select _) fun found => ?_) db
  cases found with
  | none => exact Moves.pure _
  | some user =>
    simp only []
    split
    · exact Moves.abort _
    · exact Moves.pure _
    · exact Moves.bind (stages.plain (.setOnline _ _)) fun _ => Moves.pure _

theorem createUserSession (userId : Nat) (key : Bytes) : R db (createUserSession userId key db).1 :=
  Moves.transaction (Moves.bind (stages.plain (.insertUserSession _ _)) fun _ => stages.plain (.setOnline _ _)) db

theorem registerUrls (userId : Nat) (urls : List Text) : R db (registerUrls userId urls db).1 :=
  Moves.transaction (Moves.bind (stages.plain (.deleteStationUrls _)) fun _ =>
    Moves.forM (fun _ => stages.plain (.insertStationUrl _ _)) _) db

theorem closeSecureSession (userId : Nat) : R db (closeSecureSession now userId db).1 := by
  refine Moves.transaction (Moves.bind (Moves.select _) fun recent =>
    Moves.bind (stages.plain (.deleteUserSessions _)) fun _ => Moves.bind (stages.plain (.setOnline _ _)) fun _ => ?_) db
  split
  · exact Moves.pure _
  · exact Moves.bind (stages.moves_cleanupUserGameState now userId) fun _ => Moves.pure _

theorem invalidateSessions : R db (invalidateSessions now db).1 :=
  Moves.transaction (Moves.assoc (Moves.bind stages.disband fun _ =>
    Moves.bind (stages.plain (.deleteStationUrls _)) fun _ =>
    Moves.bind (stages.plain (.deleteUserSessions _)) fun _ =>
    Moves.bind (stages.plain (.updateGameSessions _ _)) fun _ => stages.plain (.setOnline _ _))) db

theorem createGameSession (userId typeId : Nat) (attributes : Text) :
    R db (createGameSession now userId typeId attributes db).1 := by
  refine Moves.transaction (Moves.bind (Moves.select _) fun id =>
    Moves.bind (stages.plain (.insertGameSession _ _ _)) fun _ =>
    Moves.bind (stages.plain (.insertParticipant _ _)) fun _ => Moves.bind ?_ fun _ => Moves.pure _) db
  split
  · exact stages.follow _ _ _ _
  · exact Moves.pure _

/-- A join moves along the relation when what it does to the parties does. -/
theorem joinGameSessionUnbounded (userId typeId sessionId : Nat)
    (hjoin : ∀ {ρ : Type}, Moves R (joinInvitingParty now userId typeId sessionId : StorageTx ρ Unit)) :
    R db (joinGameSessionUnbounded now userId typeId sessionId db).1 := by
  refine Moves.transaction (Moves.bind (Moves.select _) fun found => ?_) db
  cases found with
  | none => exact Moves.rollback _
  | some session =>
    refine Moves.bind (moves_decodeText _) fun attributes => Moves.bind (stages.plain (.insertParticipant _ _)) fun _ =>
      Moves.bind hjoin fun _ => Moves.bind (stages.consume now fun _ => _) fun _ => Moves.bind ?_ fun _ => Moves.pure _
    split
    · exact stages.follow _ _ _ _
    · exact Moves.pure _

theorem leaveGameSession (userId typeId sessionId : Nat) : R db (leaveGameSession now userId typeId sessionId db).1 :=
  Moves.transaction (Moves.bind (stages.deleteParticipants _) fun _ =>
    Moves.bind (stages.moves_reconcileGameSession now typeId sessionId) fun _ => Moves.pure _) db

theorem migrateGameSessionHost (userId typeId sessionId : Nat) : R db (migrateGameSessionHost userId typeId sessionId db).1 := by
  refine Moves.transaction (Moves.bind (Moves.select _) fun participates => ?_) db
  split
  · exact Moves.bind (Moves.select _) fun _ => Moves.bind (stages.plain (.updateGameSessions _ _)) fun _ => Moves.pure _
  · exact Moves.rollback _

theorem restoreAbandonedGameSessionForSplit (userId typeId sessionId : Nat) :
    R db (restoreAbandonedGameSessionForSplit userId typeId sessionId db).1 := by
  refine Moves.transaction (Moves.bind (Moves.select _) fun affected =>
    Moves.bind (stages.plain (.updateGameSessions _ _)) fun _ => ?_) db
  split
  · exact Moves.rollback _
  · exact Moves.bind (stages.plain (.insertParticipant _ _)) fun _ => Moves.pure _

theorem addParticipants (callerId typeId sessionId : Nat) (privateParticipants publicParticipants : List Nat) :
    R db (addParticipants now callerId typeId sessionId privateParticipants publicParticipants db).1 := by
  refine Moves.transaction ?_ db
  split
  · exact Moves.pure _
  · refine Moves.bind (Moves.select _) fun found => ?_
    cases found with
    | none => exact Moves.rollback _
    | some session =>
      exact Moves.bind (Moves.forM (fun _ => stages.plain (.insertParticipant _ _)) _) fun _ =>
        Moves.bind (Moves.forM (stages.moves_addPrivateParticipant now callerId _ _ _) _) fun _ =>
        Moves.bind (stages.moves_reconcileGameSession now typeId sessionId) fun _ => Moves.pure _

theorem removeParticipants (typeId sessionId : Nat) (participants : List Nat) :
    R db (removeParticipants now typeId sessionId participants db).1 :=
  Moves.transaction (Moves.bind (Moves.forM (fun _ => stages.deleteParticipants fun _ => _) _) fun _ =>
    Moves.bind (stages.moves_reconcileGameSession now typeId sessionId) fun _ => Moves.pure _) db

theorem deleteGameSession (creatorId typeId sessionId : Nat) :
    R db (deleteGameSession now creatorId typeId sessionId db).1 := by
  refine Moves.transaction (Moves.bind (Moves.select _) fun found => ?_) db
  cases found with
  | none => exact Moves.rollback _
  | some session =>
    refine Moves.bind (moves_decodeText _) fun attributes => Moves.bind (Moves.select _) fun remaining =>
      Moves.bind (Moves.select _) fun deleted => Moves.bind (stages.plain (.updateGameSessions _ _)) fun _ => ?_
    split
    · exact Moves.pure _
    · refine Moves.bind (Moves.select _) fun candidates => ?_
      split
      · exact Moves.abort _
      · split
        · exact Moves.pure _
        · exact Moves.assoc (Moves.bind (stages.restore now creatorId typeId _ _) fun _ => Moves.pure _)

theorem takeInvite (userId : Nat) : R db (takeInvite now userId db).1 := by
  refine Moves.transaction (Moves.bind (stages.deleteInvites _) fun _ =>
    Moves.bind (stages.consume now _) fun _ => Moves.bind (Moves.select _) fun found => ?_) db
  cases found with
  | none => exact Moves.pure _
  | some row => exact Moves.bind (stages.deliver now _) fun _ => Moves.pure _

/-- An acceptance moves along the relation when marking the invitation does. -/
theorem acceptInvite (userId inviteId : Nat) (haccept : ∀ {ρ : Type}, Moves R (markAccepted now userId inviteId : StorageTx ρ Unit)) :
    R db (acceptInvite now userId inviteId db).1 := by
  refine Moves.transaction (Moves.bind (stages.deleteInvites _) fun _ => Moves.bind haccept fun _ =>
    Moves.bind (Moves.select _) fun found => ?_) db
  cases found with
  | none => exact Moves.pure _
  | some invite =>
    simp only []
    split
    · refine Moves.bind (Moves.select _) fun valid => ?_
      split
      · exact Moves.pure _
      · exact Moves.rollback _
    · exact Moves.pure _

/-- A step of the store moves along the relation, when an invitation by hand does. -/
theorem step (argon2 : Argon2) (call : Call)
    (hregister : ∀ {ρ : Type} username passwordHash ubiId, call.op = .registerUser username passwordHash ubiId →
      Moves R (statement (·.insertUser username passwordHash ubiId) : StorageTx ρ Unit))
    (hjoin : ∀ {ρ : Type} userId typeId sessionId, call.op = .joinGameSessionUnbounded userId typeId sessionId →
      Moves R (joinInvitingParty call.now userId typeId sessionId : StorageTx ρ Unit))
    (haccept : ∀ {ρ : Type} userId inviteId, call.op = .acceptInvite userId inviteId →
      Moves R (markAccepted call.now userId inviteId : StorageTx ρ Unit))
    (hinvite : ∀ senderId receiverId kind sessionType sessionId, call.op = .addInvite senderId receiverId kind sessionType sessionId →
      R db (addInvite call.now senderId receiverId kind sessionType sessionId db).1) :
    R db (step argon2 db call).1 := by
  obtain ⟨now, op⟩ := call
  cases op with
  | loginUser username password => exact stages.loginUser db argon2 username password
  | touchApiPresence userId => exact Moves.transaction (stages.plain (.touch _ _)) db
  | registerUser username passwordHash ubiId =>
    exact Moves.transaction (hregister username passwordHash ubiId rfl) db
  | createUserSession userId key => exact stages.createUserSession db userId key
  | deleteUser userId => exact Moves.transaction (stages.deleteUser userId) db
  | registerUrls userId urls => exact stages.registerUrls db userId urls
  | deleteUserSession userId => exact Moves.transaction (stages.moves_cleanupUserGameState now userId) db
  | closeSecureSession userId => exact stages.closeSecureSession db now userId
  | cleanupStaleApiSessions =>
    exact Moves.transaction (Moves.bind (Moves.select _) fun _ => Moves.forM (stages.moves_cleanupUserGameState now) _) db
  | invalidateSessions => exact stages.invalidateSessions db now
  | createGameSession userId typeId attributes => exact stages.createGameSession db now userId typeId attributes
  | joinGameSessionUnbounded userId typeId sessionId =>
    exact stages.joinGameSessionUnbounded db now userId typeId sessionId (hjoin userId typeId sessionId rfl)
  | leaveGameSession userId typeId sessionId => exact stages.leaveGameSession db now userId typeId sessionId
  | migrateGameSessionHost userId typeId sessionId => exact stages.migrateGameSessionHost db userId typeId sessionId
  | restoreAbandonedGameSessionForSplit userId typeId sessionId =>
    exact stages.restoreAbandonedGameSessionForSplit db userId typeId sessionId
  | updateGameSession typeId gameId attributes => exact Moves.transaction (stages.plain (.updateGameSessions _ _)) db
  | addParticipants callerId typeId sessionId privateParticipants publicParticipants =>
    exact stages.addParticipants db now callerId typeId sessionId privateParticipants publicParticipants
  | removeParticipants typeId sessionId participants => exact stages.removeParticipants db now typeId sessionId participants
  | deleteGameSession creatorId typeId sessionId => exact stages.deleteGameSession db now creatorId typeId sessionId
  | deleteGameSessionById sessionId => exact Moves.transaction (stages.plain (.updateGameSessions _ _)) db
  | addInvite senderId receiverId kind sessionType sessionId =>
    exact hinvite senderId receiverId kind sessionType sessionId rfl
  | takeInvite userId => exact stages.takeInvite db now userId
  | acceptInvite userId inviteId => exact stages.acceptInvite db now userId inviteId (haccept userId inviteId rfl)

end OwnStages

/-- A step of the store moves along the relation. -/
theorem Stages.step {R : Database → Database → Prop} [IsPreorder Database R] (stages : Stages R) (db : Database) (argon2 : Argon2)
    (call : Call)
    (hregister : ∀ {ρ : Type} username passwordHash ubiId, call.op = .registerUser username passwordHash ubiId →
      Moves R (statement (·.insertUser username passwordHash ubiId) : StorageTx ρ Unit))
    (hjoin : ∀ {ρ : Type} userId typeId sessionId, call.op = .joinGameSessionUnbounded userId typeId sessionId →
      Moves R (joinInvitingParty call.now userId typeId sessionId : StorageTx ρ Unit))
    (haccept : ∀ {ρ : Type} userId inviteId, call.op = .acceptInvite userId inviteId →
      Moves R (markAccepted call.now userId inviteId : StorageTx ρ Unit)) :
    R db (step argon2 db call).1 :=
  stages.toOwnStages.step db argon2 call hregister hjoin haccept fun senderId receiverId kind sessionType sessionId _ =>
    stages.addInvite call.now senderId receiverId kind sessionType sessionId db

namespace Parts

variable {R : Database → Database → Prop} [IsPreorder Database R] (parts : Parts R)

include parts

theorem moves_queuePartyFollowInvites (now : Time) (leaderId sessionType sessionId : Nat) :
    Moves R (queuePartyFollowInvites now leaderId sessionType sessionId : StorageTx ρ Unit) :=
  moves_queuePartyFollowInvites_of parts.follow now leaderId sessionType sessionId

/-- The parts make up the stages. -/
theorem stages : Stages R where
  plain := parts.plain
  deleteParticipants := parts.deleteParticipants
  deleteUser := parts.deleteUser
  leaveParty := parts.leaveParty
  disband := parts.disband
  deleteInvites := parts.deleteInvites
  consume := parts.consume
  deliver := parts.deliver
  follow := parts.moves_queuePartyFollowInvites
  restore := parts.restore
  addInvite := parts.addInvite

/-- A step of the store moves along the relation. -/
theorem step (db : Database) (argon2 : Argon2) (call : Call)
    (hregister : ∀ {ρ : Type} username passwordHash ubiId, call.op = .registerUser username passwordHash ubiId →
      Moves R (statement (·.insertUser username passwordHash ubiId) : StorageTx ρ Unit))
    (hjoin : ∀ {ρ : Type} userId typeId sessionId, call.op = .joinGameSessionUnbounded userId typeId sessionId →
      Moves R (joinInvitingParty call.now userId typeId sessionId : StorageTx ρ Unit))
    (haccept : ∀ {ρ : Type} userId inviteId, call.op = .acceptInvite userId inviteId →
      Moves R (markAccepted call.now userId inviteId : StorageTx ρ Unit)) :
    R db (step argon2 db call).1 :=
  parts.stages.step db argon2 call hregister hjoin haccept

end Parts

end Scbl.Storage
