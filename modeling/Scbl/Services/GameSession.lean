import Scbl.Lib.IpAddress
import Scbl.Services.Protocol
import Scbl.Storage.Queries

/-!
# Game sessions

The implementation of the game session protocol (`game_session.rs`), as far as it changes sessions and their participants, and the
registration of endpoints. A request with one field is given by that field, and so is a response.
-/

namespace Scbl.Services.GameSessionService

open Scbl.Lib Scbl.Rmc Scbl.Prudp Scbl.Storage

/-- The key of a session. -/
structure GameSessionKey where
  typeId : UInt32
  sessionId : UInt32
  deriving DecidableEq, Repr

/-- A property. -/
structure Property where
  id : UInt32
  value : UInt32
  deriving DecidableEq, Repr

/-- A session to create. -/
structure GameSession where
  typeId : UInt32
  attributes : List Property
  deriving DecidableEq, Repr

/-- An update of a session. -/
structure GameSessionUpdate where
  sessionKey : GameSessionKey
  attributes : List Property
  deriving DecidableEq, Repr

/-- A request to add participants to a session. -/
structure AddParticipantsRequest where
  gameSessionKey : GameSessionKey
  publicParticipantIds : List UInt32
  privateParticipantIds : List UInt32
  deriving DecidableEq, Repr

/-- A request to remove participants from a session. -/
structure RemoveParticipantsRequest where
  gameSessionKey : GameSessionKey
  participantIds : List UInt32
  deriving DecidableEq, Repr

/-- A number in decimal. -/
def decimal (n : UInt32) : Text := Nat.toDigits 10 n.toNat

/-- The attributes as the store keeps them: `id => value`, separated by semicolons. -/
def attributesText (attributes : List Property) : Text :=
  joinWith ';' (attributes.map (fun property => decimal property.id ++ " => ".toList ++ decimal property.value))

/-- A property in a text. -/
def Property.fromStr (value : Text) : Option Property := do
  let (id, value) ← splitOnce " => ".toList value
  let id ← parseU32 id
  let value ← parseU32 value
  pure { id := UInt32.ofNat id, value := UInt32.ofNat value }

/-- The properties in a text, if each of them can be read. -/
def parseProperties (value : Text) : Option (List Property) := (value.splitOn ';').mapM Property.fromStr

def createSession (gameSession : GameSession) : RmcHandler GameSessionKey := do
  let userId ← loginRequired
  let sessionType := gameSession.typeId
  let sessionId ← stored (fun now =>
    createGameSession now userId.toNat sessionType.toNat (attributesText gameSession.attributes))
  pure { typeId := sessionType, sessionId := UInt32.ofNat sessionId }

/-- The user of the connection is asked for and not used. -/
def updateSession (gameSessionUpdate : GameSessionUpdate) : RmcHandler Unit := do
  let _ ← loginRequired
  let key := gameSessionUpdate.sessionKey
  stored (fun _ => updateGameSession key.typeId.toNat key.sessionId.toNat (attributesText gameSessionUpdate.attributes))

def deleteSession (key : GameSessionKey) : RmcHandler Unit := do
  let userId ← loginRequired
  let _ ← stored (fun now => deleteGameSession now userId.toNat key.typeId.toNat key.sessionId.toNat)
  pure ()

def migrateSession (key : GameSessionKey) : RmcHandler GameSessionKey := do
  let userId ← loginRequired
  let migrated ← stored (fun _ => migrateGameSessionHost userId.toNat key.typeId.toNat key.sessionId.toNat)
  if migrated then pure key else Handler.fail .accessDenied

def migrateSessionHost (key : GameSessionKey) : RmcHandler Unit := do
  let userId ← loginRequired
  let migrated ← stored (fun _ => migrateGameSessionHost userId.toNat key.typeId.toNat key.sessionId.toNat)
  if migrated then pure () else Handler.fail .accessDenied

def leaveSession (key : GameSessionKey) : RmcHandler Unit := do
  let userId ← loginRequired
  stored (fun now => leaveGameSession now userId.toNat key.typeId.toNat key.sessionId.toNat)

def addParticipants (request : AddParticipantsRequest) : RmcHandler Unit := do
  let callerId ← loginRequired
  let key := request.gameSessionKey
  stored (fun now => Storage.addParticipants now callerId.toNat key.typeId.toNat key.sessionId.toNat
    (request.privateParticipantIds.map (·.toNat)) (request.publicParticipantIds.map (·.toNat)))

/-- The user of the connection is asked for and not used. -/
def removeParticipants (request : RemoveParticipantsRequest) : RmcHandler Unit := do
  let _ ← loginRequired
  let key := request.gameSessionKey
  stored (fun now => Storage.removeParticipants now key.typeId.toNat key.sessionId.toNat (request.participantIds.map (·.toNat)))

def abandonSession (key : GameSessionKey) : RmcHandler Unit := do
  let userId ← loginRequired
  stored (fun now => leaveGameSession now userId.toNat key.typeId.toNat key.sessionId.toNat)

def splitSessionResultAllowed (migrated restored : Bool) : Bool := migrated || restored

def splitSession (key : GameSessionKey) : RmcHandler GameSessionKey := do
  let userId ← loginRequired
  let migrated ← stored (fun _ => migrateGameSessionHost userId.toNat key.typeId.toNat key.sessionId.toNat)
  let restored ←
    if migrated then pure false
    else do
      let sessionActive ← queried (fun _ t => .ok (gameSessionIsActive key.typeId.toNat key.sessionId.toNat t))
      if sessionActive then pure false
      else stored (fun _ => restoreAbandonedGameSessionForSplit userId.toNat key.typeId.toNat key.sessionId.toNat)
  if splitSessionResultAllowed migrated restored then pure key else Handler.fail .accessDenied

/-- The requests that change sessions or their participants. -/
inductive GameSessionRequest where
  | createSession (gameSession : GameSession)
  | updateSession (gameSessionUpdate : GameSessionUpdate)
  | deleteSession (key : GameSessionKey)
  | migrateSession (key : GameSessionKey)
  | migrateSessionHost (key : GameSessionKey)
  | leaveSession (key : GameSessionKey)
  | addParticipants (request : AddParticipantsRequest)
  | removeParticipants (request : RemoveParticipantsRequest)
  | abandonSession (key : GameSessionKey)
  | splitSession (key : GameSessionKey)

/-- The responses to them. -/
inductive GameSessionResponse where
  | createSession (key : GameSessionKey)
  | updateSession
  | deleteSession
  | migrateSession (gameSessionKeyMigrated : GameSessionKey)
  | migrateSessionHost
  | leaveSession
  | addParticipants
  | removeParticipants
  | abandonSession
  | splitSession (gameSessionKeyMigrated : GameSessionKey)
  deriving DecidableEq, Repr

/-- The implementation of the method of a request. -/
def GameSessionRequest.call : GameSessionRequest → RmcHandler GameSessionResponse
  | .createSession gameSession => do return .createSession (← GameSessionService.createSession gameSession)
  | .updateSession update => do
    GameSessionService.updateSession update
    return .updateSession
  | .deleteSession key => do
    GameSessionService.deleteSession key
    return .deleteSession
  | .migrateSession key => do return .migrateSession (← GameSessionService.migrateSession key)
  | .migrateSessionHost key => do
    GameSessionService.migrateSessionHost key
    return .migrateSessionHost
  | .leaveSession key => do
    GameSessionService.leaveSession key
    return .leaveSession
  | .addParticipants request => do
    GameSessionService.addParticipants request
    return .addParticipants
  | .removeParticipants request => do
    GameSessionService.removeParticipants request
    return .removeParticipants
  | .abandonSession key => do
    GameSessionService.abandonSession key
    return .abandonSession
  | .splitSession key => do return .splitSession (← GameSessionService.splitSession key)

/-! ## The endpoints of a user -/

/-- An address of version 4 in print. -/
def ipv4Text (octets : List Nat) : Text := joinWith '.' (octets.map (Nat.toDigits 10))

/-- `Ipv4Addr::is_private`: an address of a network for private use. -/
def isPrivate : List Nat → Bool
  | [a, b, _, _] => a = 10 ∨ (a = 172 ∧ 16 ≤ b ∧ b ≤ 31) ∨ (a = 192 ∧ b = 168)
  | _ => false

/-- The address a user was seen at, when it is a private one of version 4 and not the one of version 4 that was registered. -/
def observedPrivateIpv4Override (registeredAddress observedAddress : Text) : Option Text := do
  let observed ← ipv4Octets observedAddress
  if !isPrivate observed then none
  else
    let registered ← ipv4Octets registeredAddress
    if registered ≠ observed then some (ipv4Text observed) else none

/-- A station URL with the address it is stored under. -/
def normalizedUrl (observedAddress : Text) (stationUrl : StationURL) : StationURL :=
  match observedPrivateIpv4Override stationUrl.address observedAddress with
  | some address => { stationUrl with address }
  | none => stationUrl

def registerUrls (stationUrls : List StationURL) : RmcHandler Unit := do
  let userId ← loginRequired
  let c ← Handler.caller
  stored (fun _ => Storage.registerUrls userId.toNat
    (stationUrls.map (fun stationUrl => (normalizedUrl c.info.address.ip stationUrl).display c.env.mapOrder)))

/-! ## No request panics -/

/-- A handler that asks for the user and then does something to the store. -/
theorem total_loginStored {α β : Type} (op : UInt32 → Time → Operation β) {f : β → RmcHandler α} (hf : ∀ b, (f b).Total) :
    (do
      let userId ← loginRequired
      let b ← stored (op userId)
      f b : RmcHandler α).Total :=
  total_loginRequired.bind fun userId => (total_stored (op userId)).bind hf

/-- The answer of a handler that ends is put into the response. -/
theorem total_response {α β : Type} (f : α → β) {m : RmcHandler α} (hm : m.Total) : (do return f (← m) : RmcHandler β).Total :=
  hm.bind fun a => Handler.total_pure (f a)

/-- A refusal or an answer. -/
theorem total_ite {α : Type} (b : Bool) (a : α) :
    (if b then pure a else Handler.fail .accessDenied : RmcHandler α).Total := by
  cases b with
  | true => exact Handler.total_pure a
  | false => exact Handler.total_fail _

/-- Every request ends with a response or an error, whoever calls and whatever the tables hold. -/
theorem GameSessionRequest.total_call (request : GameSessionRequest) : request.call.Total := by
  have hlogin : ∀ {α : Type} (op : UInt32 → Time → Operation α), (loginRequired >>= fun userId => stored (op userId)).Total :=
    fun op => total_loginRequired.bind fun userId => total_stored (op userId)
  cases request with
  | createSession gameSession => exact total_response _ (total_loginStored _ fun _ => Handler.total_pure _)
  | updateSession update => exact total_response (fun _ => GameSessionResponse.updateSession) (hlogin _)
  | deleteSession key =>
    exact total_response (fun _ => GameSessionResponse.deleteSession) (total_loginStored _ fun _ => Handler.total_pure _)
  | migrateSession key => exact total_response _ (total_loginStored _ fun migrated => total_ite migrated _)
  | migrateSessionHost key =>
    exact total_response (fun _ => GameSessionResponse.migrateSessionHost) (total_loginStored _ fun migrated => total_ite migrated _)
  | leaveSession key => exact total_response (fun _ => GameSessionResponse.leaveSession) (hlogin _)
  | addParticipants request => exact total_response (fun _ => GameSessionResponse.addParticipants) (hlogin _)
  | removeParticipants request => exact total_response (fun _ => GameSessionResponse.removeParticipants) (hlogin _)
  | abandonSession key => exact total_response (fun _ => GameSessionResponse.abandonSession) (hlogin _)
  | splitSession key =>
    refine total_response _ (total_loginRequired.bind fun userId => (total_stored _).bind fun migrated => ?_)
    cases migrated with
    | true => exact (Handler.total_pure _).bind fun restored => total_ite _ _
    | false =>
      refine (total_stored _).bind fun sessionActive => ?_
      cases sessionActive with
      | true => exact (Handler.total_pure _).bind fun restored => total_ite _ _
      | false => exact (total_stored _).bind fun restored => total_ite _ _

end Scbl.Services.GameSessionService
