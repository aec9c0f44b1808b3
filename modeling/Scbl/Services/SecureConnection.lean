import Scbl.Services.Protocol

/-!
# Registration on the secure server

The secure connection protocol (`secure.rs`): a client that is logged in asks for the id of its connection and for the station URL
under which others see it. The two requests differ in the parameters of the URL.
-/

namespace Scbl.Services.SecureConnectionService

open Scbl.Lib Scbl.Rmc Scbl.Prudp

def SECURE_CONNECTION_PROTOCOL_ID : UInt16 := 11

/-- The answer of a registration. -/
structure RegisterResponse where
  returnValue : QResult
  pidConnectionId : UInt32
  urlPublic : StationURL
  deriving DecidableEq

/-- The text of the station URL of an address. -/
def urlPublic (address : SocketAddr) (sid type : Text) : Text :=
  "prudp:/address=".toList ++ address.ip ++ ";port=".toList ++ (toString address.port).toList ++ ";sid=".toList ++ sid ++
    ";type=".toList ++ type

/-- Answer a registration; a connection with a user and without an id is a panic. -/
def answerRegistration (sid type : Text) : RmcHandler RegisterResponse := do
  let _ ← loginRequired
  let c ← Handler.caller
  let id ← Handler.orPanic (unwrap c.info.connectionId)
  let urlPublic ← Handler.orFail ((StationURL.parse (urlPublic c.info.address sid type)).mapError (fun _ => .internalError))
  return { returnValue := .ok, pidConnectionId := id.id, urlPublic }

/-- `Register`; the URLs of the client are only logged. -/
def register (_vecMyUrls : List StationURL) : RmcHandler RegisterResponse := answerRegistration "14".toList "2".toList

/-- `RegisterEx`; the URLs and the data of the client are only logged. -/
def registerEx (_vecMyUrls : List StationURL) (_hCustomData : Any Text) : RmcHandler RegisterResponse :=
  answerRegistration "15".toList "3".toList

/-- The answer as it is written. -/
abbrev registerResponse : Ty := .pair .qresult (.pair .u32 .stationURL)

/-- The methods of the protocol with an implementation. -/
def methods : List Method :=
  [{ id := 1
     request := .vec .stationURL
     response := registerResponse
     call := fun urls => do
       let r ← register urls
       return (r.returnValue, r.pidConnectionId, r.urlPublic) },
   { id := 4
     request := .pair (.vec .stationURL) (.any .string)
     response := registerResponse
     call := fun request => do
       let r ← registerEx request.1 request.2
       return (r.returnValue, r.pidConnectionId, r.urlPublic) }]

/-- The generated server of the protocol. -/
def newProtocol (rest : Unimplemented) : Protocol := Protocol.generated rest SECURE_CONNECTION_PROTOCOL_ID methods

end Scbl.Services.SecureConnectionService
