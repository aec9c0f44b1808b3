import Scbl.Lib.Run
import Scbl.Storage.Operations

/-!
# Runs of the session store

The operations as inputs of a state machine: a call carries the time, the operation and its arguments, and a step gives the
tables after it. The migrations leave the tables of `migrated`.
-/

namespace Scbl.Storage

open Scbl.Lib

/-- An operation of the store with its arguments. -/
inductive StorageOp where
  | loginUser (username password : Text)
  | touchApiPresence (userId : Nat)
  | registerUser (username passwordHash : Text) (ubiId : Option Text)
  | createUserSession (userId : Nat) (key : Bytes)
  | deleteUser (userId : Nat)
  | registerUrls (userId : Nat) (urls : List Text)
  | deleteUserSession (userId : Nat)
  | closeSecureSession (userId : Nat)
  | cleanupStaleApiSessions
  | invalidateSessions
  | createGameSession (userId typeId : Nat) (attributes : Text)
  | joinGameSessionUnbounded (userId typeId sessionId : Nat)
  | leaveGameSession (userId typeId sessionId : Nat)
  | migrateGameSessionHost (userId typeId sessionId : Nat)
  | restoreAbandonedGameSessionForSplit (userId typeId sessionId : Nat)
  | updateGameSession (typeId gameId : Nat) (attributes : Text)
  | addParticipants (callerId typeId sessionId : Nat) (privateParticipants publicParticipants : List Nat)
  | removeParticipants (typeId sessionId : Nat) (participants : List Nat)
  | deleteGameSession (creatorId typeId sessionId : Nat)
  | deleteGameSessionById (sessionId : Nat)
  | addInvite (senderId receiverId kind sessionType sessionId : Nat)
  | takeInvite (userId : Nat)
  | acceptInvite (userId inviteId : Nat)

/-- A call of an operation at a time. -/
structure Call where
  now : Time
  op : StorageOp

/-- The tables after a call. -/
def StorageOp.apply (argon2 : Argon2) (now : Time) (db : Database) : StorageOp → Database
  | .loginUser username password => (Storage.loginUser argon2 username password db).1
  | .touchApiPresence userId => (Storage.touchApiPresence now userId db).1
  | .registerUser username passwordHash ubiId => (registerUserUnsafe username passwordHash ubiId db).1
  | .createUserSession userId key => (Storage.createUserSession userId key db).1
  | .deleteUser userId => (Storage.deleteUser userId db).1
  | .registerUrls userId urls => (Storage.registerUrls userId urls db).1
  | .deleteUserSession userId => (Storage.deleteUserSession now userId db).1
  | .closeSecureSession userId => (Storage.closeSecureSession now userId db).1
  | .cleanupStaleApiSessions => (Storage.cleanupStaleApiSessions now db).1
  | .invalidateSessions => (Storage.invalidateSessions now db).1
  | .createGameSession userId typeId attributes => (Storage.createGameSession now userId typeId attributes db).1
  | .joinGameSessionUnbounded userId typeId sessionId => (Storage.joinGameSessionUnbounded now userId typeId sessionId db).1
  | .leaveGameSession userId typeId sessionId => (Storage.leaveGameSession now userId typeId sessionId db).1
  | .migrateGameSessionHost userId typeId sessionId => (Storage.migrateGameSessionHost userId typeId sessionId db).1
  | .restoreAbandonedGameSessionForSplit userId typeId sessionId =>
    (Storage.restoreAbandonedGameSessionForSplit userId typeId sessionId db).1
  | .updateGameSession typeId gameId attributes => (Storage.updateGameSession typeId gameId attributes db).1
  | .addParticipants callerId typeId sessionId privateParticipants publicParticipants =>
    (Storage.addParticipants now callerId typeId sessionId privateParticipants publicParticipants db).1
  | .removeParticipants typeId sessionId participants => (Storage.removeParticipants now typeId sessionId participants db).1
  | .deleteGameSession creatorId typeId sessionId => (Storage.deleteGameSession now creatorId typeId sessionId db).1
  | .deleteGameSessionById sessionId => (Storage.deleteGameSessionById now sessionId db).1
  | .addInvite senderId receiverId kind sessionType sessionId =>
    (Storage.addInvite now senderId receiverId kind sessionType sessionId db).1
  | .takeInvite userId => (Storage.takeInvite now userId db).1
  | .acceptInvite userId inviteId => (Storage.acceptInvite now userId inviteId db).1

/-- One step of the store. -/
def step (argon2 : Argon2) (db : Database) (call : Call) : Database × Unit := (call.op.apply argon2 call.now db, ())

/-- The tables after the migrations. -/
def migratedTables : Tables where
  users :=
    [{ id := 1, username := "Server".toList, password := none, passwordHash := none, ubiId := none },
      { id := 105, username := "Tracking".toList, password := some "JaDe!".toList, passwordHash := none, ubiId := none },
      { id := 1000, username := "Foo".toList, password := none, passwordHash := none, ubiId := some "MYID".toList },
      { id := 1001, username := "AAAABBBB".toList, password := none,
        passwordHash := some ("$argon2id$v=19$m=19456,t=2,p=1$ak/934K3+OsQ71Dogbr+Iw$" ++
          "Fy3aLbg2bQFXrnucys2gsBqiy2Jgv9QMBWWiPzS7VTk").toList,
        ubiId := some "ABCD".toList },
      { id := 1002, username := "sam_the_fisher".toList, password := none,
        passwordHash := some "$argon2id$v=19$m=16,t=2,p=1$c1hvR0JwNTMyaTQ2Nk9uMQ$JOefJqEVFQhLM580DBnqXA".toList,
        ubiId := some "SAM".toList }]
  gameSessions := [{ id := 1, typeId := 1, attributes := none, creatorId := 1000 }]
  participants := [{ gameId := 1, userId := 1000 }]
  stationUrls :=
    [{ userId := 1000, url := "prudp:/address=127.0.0.1;port=19999;hdrType=00000000;RVCID=1234;type=2".toList }]
  userSessions := []
  invites := []
  parties := []
  partyMembers := []
  partySequence := 0
  inviteLog := []

/-- The database after the migrations. -/
def migrated : Database := { migratedTables with keys := by decide, references := by decide }

end Scbl.Storage
