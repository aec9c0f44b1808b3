import Scbl.Lemmas.Isolation
import Scbl.Services.GameSession
import Scbl.Theorems.AtMostOnce
import Scbl.Theorems.Host

/-!
# Session isolation

Whether a request of a user leaves the sessions alone that are foreign to the user. Creating, deleting, migrating and splitting a
session always do, since the store asks whose session it is. An update of the attributes, an addition and a removal of participants
are carried out for every user who is logged in, and leaving a session reconciles it even for a user who is not in it.
-/

namespace Scbl.Services.GameSessionService

open Scbl.Lib Scbl.Prudp Scbl.Storage Isolation

/-- The condition under which a request of a user changes no session that is foreign to the user. -/
def GameSessionRequest.Respects (now : Time) (userId : Nat) (t : Tables) : GameSessionRequest → Prop
  | .updateSession update => ∀ g ∈ t.gameSessions, t.Foreign userId g → g.id = update.sessionKey.sessionId.toNat →
      g.typeId = update.sessionKey.typeId.toNat → g.attributes = some (attributesText update.attributes)
  | .leaveSession key | .abandonSession key => ∀ g ∈ t.gameSessions, t.Foreign userId g → g.id = key.sessionId.toNat →
      g.typeId = key.typeId.toNat → g.destroyedAt = none → { gameId := g.id, userId := g.creatorId } ∈ t.participants
  | .addParticipants request =>
      let key := request.gameSessionKey
      let privateParticipants := request.privateParticipantIds.map (·.toNat)
      let publicParticipants := request.publicParticipantIds.map (·.toNat)
      ∀ g ∈ t.gameSessions, t.Foreign userId g → g.id = key.sessionId.toNat → g.typeId = key.typeId.toNat → g.destroyedAt = none →
        let admitted :=
          t.admitted now userId key.typeId.toNat key.sessionId.toNat g.creatorId privateParticipants publicParticipants
        (privateParticipants = [] ∧ publicParticipants = []) ∨ (∃ v ∈ admitted, ¬ t.HasUser v) ∨
          ((∀ v ∈ admitted, { gameId := g.id, userId := v } ∈ t.participants) ∧
            { gameId := g.id, userId := g.creatorId } ∈ t.participants)
  | .removeParticipants request => ∀ g ∈ t.gameSessions, t.Foreign userId g → g.id = request.gameSessionKey.sessionId.toNat →
      (∀ v ∈ request.participantIds.map (·.toNat), { gameId := g.id, userId := v } ∉ t.participants) ∧
        (g.typeId = request.gameSessionKey.typeId.toNat → g.destroyedAt = none →
          { gameId := g.id, userId := g.creatorId } ∈ t.participants)
  | .createSession _ | .deleteSession _ | .migrateSession _ | .migrateSessionHost _ | .splitSession _ => True

section Handlers

variable {α β : Type} {c : Caller} {st : CallState} {userId : UInt32}

/-- A handler that asks for the user goes on with the user of the connection. -/
theorem ends_loginRequired (h : st.userId = some userId) {f : UInt32 → RmcHandler α} {Q : CallState → Except Rmc.Error α → Prop}
    (hf : (f userId).Ends c st Q) : (loginRequired >>= f).Ends c st Q := by
  refine Handler.ends_bind (Handler.ends_bind (Handler.ends_operate ?_))
  simp only [h]
  exact Handler.ends_pure hf

/-- An operation of the store changes the database as it says, and the rest of the handler does not. -/
theorem ends_stored {op : Time → Operation β} {f : β → RmcHandler α} {R : Database → Prop} (hop : R (op c.env.unixTime.toNat st.db).1)
    (hf : ∀ b st', R st'.db → (f b).Ends c st' (fun st'' _ => R st''.db)) :
    (stored op >>= f).Ends c st (fun st' _ => R st'.db) := by
  refine Handler.ends_bind (Handler.ends_operate ?_)
  generalize op c.env.unixTime.toNat st.db = outcome at hop
  obtain ⟨db, result⟩ := outcome
  cases result with
  | ok b => exact hf b _ hop
  | error e => exact hop

/-- A refusal or an answer. -/
theorem ends_ite {R : Database → Prop} (h : R st.db) (b : Bool) (a : α) :
    (if b then pure a else Handler.fail .accessDenied : RmcHandler α).Ends c st (fun st' _ => R st'.db) := by
  cases b with
  | true => exact Handler.ends_pure h
  | false => exact Handler.ends_fail h

/-- An operation of the store alone. -/
theorem ends_operation {op : Time → Operation β} {R : Database → Prop} (hop : R (op c.env.unixTime.toNat st.db).1) :
    (stored op).Ends c st (fun st' _ => R st'.db) :=
  Handler.ends_operate hop

/-- The answer of a handler is put into the response. -/
theorem ends_response (f : α → β) {m : RmcHandler α} {R : Database → Prop} (hm : m.Ends c st (fun st' _ => R st'.db)) :
    (do return f (← m) : RmcHandler β).Ends c st (fun st' _ => R st'.db) := by
  refine Handler.ends_bind (hm.mono fun st' r hr => ?_)
  cases r with
  | ok a => exact Handler.ends_pure hr
  | error e => exact hr

/-- Passing a session to the user is refused or not. -/
theorem ends_migrate {R : Database → Prop} {key : GameSessionKey} (a : α)
    (h : R (migrateGameSessionHost userId.toNat key.typeId.toNat key.sessionId.toNat st.db).1) :
    (do
      let migrated ← stored (fun _ => migrateGameSessionHost userId.toNat key.typeId.toNat key.sessionId.toNat)
      if migrated then pure a else Handler.fail .accessDenied : RmcHandler α).Ends c st (fun st' _ => R st'.db) :=
  ends_stored h fun migrated _ h' => ends_ite h' migrated a

end Handlers

variable {c : Caller} {st : CallState} {userId : UInt32}

/-- Splitting a session passes it to the user or restores it. -/
theorem ends_splitSession (h : st.userId = some userId) (key : GameSessionKey) :
    (splitSession key).Ends c st (fun st' _ => Isolating userId.toNat st.db st'.db) := by
  refine ends_loginRequired h (ends_stored (isolating_migrateGameSessionHost _ _ _ _)
    fun migrated st' hmigrated => ?_)
  cases migrated with
  | true => exact Handler.ends_bind (Handler.ends_pure (ends_ite hmigrated _ _))
  | false =>
    simp only [Bool.false_eq_true, if_false, queried]
    refine ends_stored hmigrated fun sessionActive st'' hactive => ?_
    cases sessionActive with
    | true => exact Handler.ends_bind (Handler.ends_pure (ends_ite hactive _ _))
    | false =>
      refine ends_stored ?_ fun restored _ hrestored => ends_ite hrestored _ _
      exact trans_of (Isolating userId.toNat) hactive (isolating_restoreAbandonedGameSessionForSplit _ _ _ _)

/-- A database isolates a user from the one before it exactly under a condition. -/
def IsolatingIff (userId : Nat) (P : Prop) (db db' : Database) : Prop := Isolating userId db db' ↔ P

/-- What always isolates the user. -/
theorem ends_isolating {α : Type} {m : RmcHandler α} (h : m.Ends c st (fun st' _ => Isolating userId.toNat st.db st'.db)) :
    m.Ends c st (fun st' _ => IsolatingIff userId.toNat True st.db st'.db) :=
  h.mono fun _ _ hr => iff_of_true hr trivial

/-- Every request ends in a database that isolates the user exactly when the request respects the sessions of others. -/
theorem ends_call (c : Caller) (h : st.userId = some userId) (request : GameSessionRequest) :
    (request.call).Ends c st (fun st' _ =>
      IsolatingIff userId.toNat (request.Respects c.env.unixTime.toNat userId.toNat st.db.toTables) st.db st'.db) := by
  cases request with
  | createSession gameSession =>
    refine ends_response GameSessionResponse.createSession (ends_isolating (ends_loginRequired h ?_))
    exact ends_stored (isolating_createGameSession _ _ _ _ _) fun _ _ hr => Handler.ends_pure hr
  | updateSession update =>
    refine ends_response (fun _ => GameSessionResponse.updateSession) (ends_loginRequired h ?_)
    exact ends_operation (isolates_updateGameSession_iff ..)
  | deleteSession key =>
    refine ends_response (fun _ => GameSessionResponse.deleteSession) (ends_isolating (ends_loginRequired h ?_))
    exact ends_stored (isolating_deleteGameSession _ _ _ _ _) fun _ _ hr => Handler.ends_pure hr
  | migrateSession key =>
    refine ends_response GameSessionResponse.migrateSession (ends_isolating (ends_loginRequired h ?_))
    exact ends_migrate _ (isolating_migrateGameSessionHost _ _ _ _)
  | migrateSessionHost key =>
    refine ends_response (fun _ => GameSessionResponse.migrateSessionHost) (ends_isolating (ends_loginRequired h ?_))
    exact ends_migrate _ (isolating_migrateGameSessionHost _ _ _ _)
  | leaveSession key =>
    refine ends_response (fun _ => GameSessionResponse.leaveSession) (ends_loginRequired h ?_)
    exact ends_operation (isolates_leaveGameSession_iff ..)
  | addParticipants request =>
    refine ends_response (fun _ => GameSessionResponse.addParticipants) (ends_loginRequired h ?_)
    exact ends_operation (isolates_addParticipants_iff ..)
  | removeParticipants request =>
    refine ends_response (fun _ => GameSessionResponse.removeParticipants) (ends_loginRequired h ?_)
    exact ends_operation (isolates_removeParticipants_iff ..)
  | abandonSession key =>
    refine ends_response (fun _ => GameSessionResponse.abandonSession) (ends_loginRequired h ?_)
    exact ends_operation (isolates_leaveGameSession_iff ..)
  | splitSession key => exact ends_response GameSessionResponse.splitSession (ends_isolating (ends_splitSession h key))

/-- The user 1000 hosts a lobby. -/
def hosting : Database := run (Storage.step Host.noHash) migrated [⟨1000, .createGameSession 1000 1 "113 => 1".toList⟩]

/-- A caller. -/
def caller : Caller where
  env := AtMostOnce.quietEnv
  ctx := Context.splinterCellBlacklist []
  zlib := { compress := id, decompress := fun data _ => some data }
  signature := 7
  info := ClientInfo.new 0 7 AtMostOnce.address
  registry := { clients := ∅, connectionIdSessionIds := ∅ }

/-- The user 1001 is logged in. -/
def outsider : CallState where
  userId := some 1001
  clientSequenceIds _ := 1
  db := hosting
  events := []

/-- The key of the lobby. -/
def lobbyKey : GameSessionKey := { typeId := 1, sessionId := 2 }

end Scbl.Services.GameSessionService
