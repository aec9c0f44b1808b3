import Scbl.Auth.Ticket
import Scbl.Lib.Run
import Scbl.Prudp.ClientInfo
import Scbl.Rmc.Packet
import Scbl.Rmc.StationURL
import Scbl.Rmc.Types
import Scbl.Storage.Run

/-!
# The ticket-granting service

The three requests of `dedicated-server/src/ticket.rs`: `login`, `login_ex` and `request_ticket`. The state is the store and the
user of every connection, which is the only field of a connection they read or write. A request ends with an answer or in a panic;
an answer that hands out a ticket says which one. Other operations of the store may run between the requests.
-/

namespace Scbl.Auth

open Scbl.Lib Scbl.Rmc Scbl.Storage

/-- What the service is started with. -/
structure AuthService where
  ctx : Context
  argon2 : Argon2
  digests : Digests
  box : Secretbox

/-- The random bytes a request draws: the session key and the nonce. -/
structure Entropy where
  sessionKey : Bytes
  nonce : Bytes

/-- The store, and the users of the connections. -/
structure AuthState where
  storage : Database
  userId : UInt32 → Option UInt32

/-- The user of a connection is set. -/
def AuthState.setUserId (st : AuthState) (connection userId : UInt32) : AuthState :=
  { st with userId := fun c => if c = connection then some userId else st.userId c }

@[simp] theorem AuthState.setUserId_self (st : AuthState) (connection userId : UInt32) :
    (st.setUserId connection userId).userId connection = some userId := if_pos rfl

/-- A session key is stored; failing to store it is only logged. -/
def AuthState.storeSessionKey (st : AuthState) (userId : UInt32) (key : Bytes) : AuthState :=
  { st with storage := (createUserSession userId.toNat key st.storage).1 }

/-- The id of the user with a name. -/
def findUserIdByName (db : Database) (username : Text) : Option UInt32 :=
  (db.users.find? (·.username = username)).map (fun u => UInt32.ofNat u.id)

/-- The plain password stored for a user. -/
def findPasswordForUser (db : Database) (userId : UInt32) : Option Text :=
  (db.users.find? (·.id = userId.toNat)).bind (·.password)

/-- The principal id of the secure server. -/
def SERVER_PID : UInt32 := 0x1000

/-- Where the client finds the secure server: the text of the URL. -/
structure RVConnectionData where
  urlRegularProtocols : Text
  deriving DecidableEq, Repr

/-- The connection data of a context. -/
def getConnectionData (ctx : Context) (pid : UInt32) : RVConnectionData :=
  match ctx.secureServerAddr with
  | none =>
    { urlRegularProtocols := "prudp:/address=".toList ++ ctx.listen.ip ++ ";port=".toList ++ (toString ctx.listen.port).toList ++
        ";CID=1;PID=".toList ++ (toString pid).toList ++ ";sid=2;stream=3;type=2".toList }
  | some a =>
    { urlRegularProtocols := "prudps:/address=".toList ++ a.ip ++ ";port=".toList ++ (toString a.port).toList ++
        ";CID=1;PID=".toList ++ (toString pid).toList ++ ";sid=1;stream=3;type=2".toList }

/-- A ticket for a user and a target. -/
def KerberosTicket.grant (userId pid : UInt32) (sessionKey : Bytes) : KerberosTicket :=
  { sessionKey, pid, internal := { principleId := userId, validUntil := 0xFFFFFFFFFFFFFFFF, sessionKey } }

/-- The answer of `login` and `login_ex`. -/
structure LoginResponse where
  pidPrincipal : UInt32
  pbufResponse : Bytes
  pConnectionData : RVConnectionData
  deriving DecidableEq, Repr

/-- The answer of a request, with the ticket in it. -/
inductive Answer where
  | refused (e : Rmc.Error)
  | login (ticket : KerberosTicket) (response : LoginResponse)
  | ticket (ticket : KerberosTicket) (bufResponse : Bytes)
  deriving DecidableEq

/-- The ticket an answer hands out. -/
def Answer.granted : Answer → Option KerberosTicket
  | .refused _ => none
  | .login t _ | .ticket t _ => some t

/-- The login data of the game's account service. -/
structure UbiAuthenticationLoginCustomData where
  userName : Text
  onlineKey : Text
  password : Text
  deriving DecidableEq, Repr

/-- Read the login data. -/
def UbiAuthenticationLoginCustomData.fromStream : Reader UbiAuthenticationLoginCustomData := fun rdr => do
  let (userName, rdr) ← streamString rdr
  let (onlineKey, rdr) ← streamString rdr
  let (password, rdr) ← streamString rdr
  return ({ userName, onlineKey, password }, rdr)

/-- The request of `login_ex`. -/
structure LoginExRequest where
  strUserName : Text
  oExtraData : Any Text
  deriving DecidableEq, Repr

/-- Read the request of `login_ex`. -/
def LoginExRequest.fromStream : Reader LoginExRequest := fun rdr => do
  let (strUserName, rdr) ← streamString rdr
  let (oExtraData, rdr) ← Any.fromStream streamString rdr
  return ({ strUserName, oExtraData }, rdr)

/-- The request of `request_ticket`. -/
structure RequestTicketRequest where
  idSource : UInt32
  idTarget : UInt32
  deriving DecidableEq, Repr

/-- The login data of a request. -/
def LoginExRequest.loginData (request : LoginExRequest) : Except (Fault FromStreamError) UbiAuthenticationLoginCustomData :=
  request.oExtraData.intoInner "UbiAuthenticationLoginCustomData".toList UbiAuthenticationLoginCustomData.fromStream

variable (svc : AuthService) (entropy : Entropy) (st : AuthState) (connection : UInt32)

/-- `login`: the user with a name becomes the user of the connection and gets a ticket, encrypted under the plain password if one
is stored. -/
def login (username : Text) : Except Panic (AuthState × Answer) :=
  match findUserIdByName st.storage username with
  | none => .ok (st, .refused .accessDenied)
  | some userId => do
    let password := findPasswordForUser st.storage userId
    let st := (st.setUserId connection userId).storeSessionKey userId entropy.sessionKey
    let ticket := KerberosTicket.grant userId SERVER_PID entropy.sessionKey
    let pbufResponse ← ticket.asBytes svc.digests svc.box entropy.nonce userId password svc.ctx.ticketKey
    return (st, .login ticket { pidPrincipal := userId, pbufResponse, pConnectionData := getConnectionData svc.ctx 2 })

/-- `login_ex`: the same for a user whose password verifies. -/
def loginEx (request : LoginExRequest) : Except Panic (AuthState × Answer) :=
  match request.loginData with
  | .error (.panic p) => .error p
  | .error (.fail _) => .ok (st, .refused .fromStream)
  | .ok ubiData =>
    match loginUser svc.argon2 ubiData.userName ubiData.password st.storage with
    | (storage, .error _) => .ok ({ st with storage }, .refused .internalError)
    | (storage, .ok (.error _)) => .ok ({ st with storage }, .refused .accessDenied)
    | (storage, .ok (.ok id)) => do
      let userId := UInt32.ofNat id
      let st := (({ st with storage } : AuthState).setUserId connection userId).storeSessionKey userId entropy.sessionKey
      let ticket := KerberosTicket.grant userId SERVER_PID entropy.sessionKey
      let pbufResponse ← ticket.asBytes svc.digests svc.box entropy.nonce userId none svc.ctx.ticketKey
      return (st, .login ticket
        { pidPrincipal := userId, pbufResponse, pConnectionData := getConnectionData svc.ctx SERVER_PID })

/-- The method `login_ex` of the generated server: a request that cannot be read is refused. The URL in the answer is read from its
text. -/
def handleLoginEx (parameters : Bytes) : Except Panic (AuthState × Answer) :=
  match LoginExRequest.fromStream parameters with
  | .error _ => .ok (st, .refused .fromStream)
  | .ok (request, _) => do
    let (st, answer) ← loginEx svc entropy st connection request
    match answer with
    | .login _ response =>
      let _ ← unwrap (StationURL.parse response.pConnectionData.urlRegularProtocols).toOption
      return (st, answer)
    | _ => return (st, answer)

/-- `request_ticket`: a ticket for the user of the connection. -/
def requestTicket (request : RequestTicketRequest) : Except Panic (AuthState × Answer) :=
  if st.userId connection = some request.idSource then do
    let st := st.storeSessionKey request.idSource entropy.sessionKey
    let ticket := KerberosTicket.grant request.idSource request.idTarget entropy.sessionKey
    let bufResponse ← ticket.asBytes svc.digests svc.box entropy.nonce request.idSource
      (findPasswordForUser st.storage request.idSource) svc.ctx.ticketKey
    return (st, .ticket ticket bufResponse)
  else .ok (st, .refused .accessDenied)

/-- A request on a connection, or another operation of the store. -/
inductive AuthCall where
  | login (connection : UInt32) (entropy : Entropy) (username : Text)
  | loginEx (connection : UInt32) (entropy : Entropy) (request : LoginExRequest)
  | requestTicket (connection : UInt32) (entropy : Entropy) (request : RequestTicketRequest)
  | storage (call : Call)

/-- The connection of a request. -/
def AuthCall.connection? : AuthCall → Option UInt32
  | .login c _ _ | .loginEx c _ _ | .requestTicket c _ _ => some c
  | .storage _ => none

/-- The state and the answer after a request; one that panics changes nothing and is not answered. -/
def answered (st : AuthState) : Except Panic (AuthState × Answer) → AuthState × Option Answer
  | .ok (st, answer) => (st, some answer)
  | .error _ => (st, none)

/-- One step of the service. -/
def authStep (svc : AuthService) (st : AuthState) : AuthCall → AuthState × Option Answer
  | .login connection entropy username => answered st (login svc entropy st connection username)
  | .loginEx connection entropy request => answered st (loginEx svc entropy st connection request)
  | .requestTicket connection entropy request => answered st (requestTicket svc entropy st connection request)
  | .storage call => ({ st with storage := (step svc.argon2 st.storage call).1 }, none)

end Scbl.Auth
