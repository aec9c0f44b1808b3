import Scbl.Lib.HashMap
import Scbl.Rmc.StationURL
import Scbl.Services.GameSession

/-!
# Extended game sessions

The search of the extended game session protocol (`game_session_ex.rs`). A query of kind 8 asks for the session of an accepted
invitation; every other query, and one of kind 8 without such a session, searches the active sessions by their attributes.
-/

namespace Scbl.Services.GameSessionExService

open Scbl.Lib Scbl.Rmc Scbl.Prudp Scbl.Storage Scbl.Services.GameSessionService

/-- A search for sessions. -/
structure GameSessionQuery where
  typeId : UInt32
  queryId : UInt32
  parameters : List Property
  deriving DecidableEq, Repr

/-- A participant of a session that was found. -/
structure GameSessionParticipant where
  pid : UInt32
  name : Text
  stationUrls : List StationURL
  deriving DecidableEq

/-- A session that was found. -/
structure GameSessionSearchResult where
  sessionKey : GameSessionKey
  hostPid : UInt32
  hostUrls : List StationURL
  attributes : List Property
  deriving DecidableEq

/-- A session that was found, and its participants. -/
structure GameSessionSearchResultEx where
  gameSessionSearchResult : GameSessionSearchResult
  participants : List GameSessionParticipant
  deriving DecidableEq

def isInvitationSearchQuery (queryId : UInt32) : Bool := queryId = 8

/-- The properties as a map; of two properties with one id the last one counts. -/
def propertyMap (properties : List Property) : AList (fun _ : UInt32 => UInt32) :=
  insertAll ∅ (properties.map (fun property => (property.id, property.value)))

/-- What is asked of the attributes; a query that says nothing about attribute 103 asks for the value 0. -/
def requestedAttributes (parameters : List Property) : AList (fun _ : UInt32 => UInt32) :=
  let reqAttrs := propertyMap parameters
  match reqAttrs.lookup 103 with
  | some _ => reqAttrs
  | none => reqAttrs.insert 103 0

/-- The attributes have the values that are asked for; attribute 112 is not compared. -/
def attributesMatch (reqAttrs sessAttrs : AList (fun _ : UInt32 => UInt32)) : Bool :=
  reqAttrs.entries.all (fun e => e.1 = 112 ∨ sessAttrs.lookup e.1 = some e.2)

/-- A session stays in the result of a search by attributes; one whose attributes cannot be read does not. -/
def searchKeeps (reqAttrs : AList (fun _ : UInt32 => UInt32)) (session : Storage.GameSession) : Bool :=
  match parseProperties session.attributes with
  | some sessAttrs => attributesMatch reqAttrs (propertyMap sessAttrs)
  | none => false

/-- The endpoints in some texts, if each of them is one. -/
def stationUrlList (texts : List Text) : Option (List StationURL) := texts.mapM (fun text => (StationURL.parse text).toOption)

/-- The participant of a result; one with an endpoint that cannot be read is left out. -/
def resultParticipant (participant : Participant) : Option GameSessionParticipant :=
  (stationUrlList participant.stationUrls).map (fun stationUrls =>
    { pid := UInt32.ofNat participant.userId, name := participant.name, stationUrls })

/-- The result for a session; one whose attributes cannot be read is left out, and so is an endpoint of the host that cannot be
read. -/
def searchResult (session : Storage.GameSession) : Option GameSessionSearchResultEx :=
  (parseProperties session.attributes).map (fun attributes =>
    { gameSessionSearchResult :=
        { sessionKey := { typeId := UInt32.ofNat session.sessionType, sessionId := UInt32.ofNat session.sessionId }
          hostPid := UInt32.ofNat session.creatorId
          hostUrls := ((session.participants.filter (·.userId = session.creatorId)).flatMap (·.stationUrls)).filterMap
            (fun url => (StationURL.parse url).toOption)
          attributes }
      participants := session.participants.filterMap resultParticipant })

/-- The session of the invitation that a query asks for. -/
def invitedSession (now : Time) (userId : UInt32) (query : GameSessionQuery) (t : Tables) :
    Except StorageError (Option InvitedGameSession) :=
  if isInvitationSearchQuery query.queryId then findAcceptedInvitedSession userId.toNat query.typeId.toNat true now t
  else .ok none

def searchSessions (query : GameSessionQuery) : RmcHandler (List GameSessionSearchResultEx) := do
  let userId ← loginRequired
  let invited ← queried (fun now => invitedSession now userId query)
  let sessions ←
    match invited with
    | some invited => pure [invited.session]
    | none => queried (fun _ => Storage.searchSessions query.typeId.toNat (some userId.toNat))
  let reqAttrs := requestedAttributes query.parameters
  let sessions := if invited.isSome then sessions else sessions.filter (searchKeeps reqAttrs)
  pure (sessions.filterMap searchResult)

end Scbl.Services.GameSessionExService
