import Scbl.Kerberos
import Scbl.Lib.Base64
import Scbl.Lib.Run
import Scbl.Lib.Text
import Scbl.Storage.Queries
import Scbl.Storage.Run
import Mathlib.Data.FinEnum

/-!
# The users of the gRPC services

The part of `dedicated-server/src/api.rs` that registers users, logs them in, deletes them and authenticates their calls. A login is
answered with a token: the id of the user in decimal, sealed under the key of the process, and the nonce. An authenticated call
passes `checkToken` before its handler runs; the handler reads the user from the metadata of the request.
-/

namespace Scbl.Services.Api

open Scbl.Lib Scbl.Rmc Scbl.Storage

/-- Why a request is refused; an internal error with what stands before the error of the store. -/
inductive Status where
  | unauthenticated (message : Text)
  | notFound (message : Text)
  | alreadyExists (message : Text)
  | internal (context : Text) (error : StorageError)
  deriving DecidableEq, Repr

/-- What the services are started with: the password hash, for a password and a salt, and the encryption with the key of the process. -/
structure ApiServer where
  argon2 : Argon2
  hashPassword : Text → Text → Option Text
  box : Secretbox
  key : Bytes

/-- A nonce. -/
structure Nonce where
  bytes : Bytes
  size : bytes.length = nonceBytes

/-- The nonce of some bytes. -/
def Nonce.fromSlice (bytes : Bytes) : Option Nonce := if h : bytes.length = nonceBytes then some ⟨bytes, h⟩ else none

/-- A user, as the services show it. -/
structure User where
  id : Text
  username : Text
  ips : List Text
  deriving DecidableEq, Repr

structure LoginResponse where
  error : Text
  token : Text
  user : Option User
  deriving DecidableEq, Repr

structure RegisterResponse where
  error : Text
  user : Option User
  deriving DecidableEq, Repr

/-- The metadata of a request that the services read. -/
structure Metadata where
  authorization : Option Bytes
  userId : Option Bytes
  deriving DecidableEq, Repr

/-- The text of a metadata value: visible ASCII characters, spaces and tabs. -/
def toStr (value : Bytes) : Option Text :=
  if ∀ b ∈ value, (32 ≤ b ∧ b < 127) ∨ b = 9 then some (value.map (fun b => Char.ofNat b.toNat)) else none

/-- A number in decimal. -/
def formatId (userId : Nat) : Text := Nat.toDigits 10 userId

/-! ## The `Users` service -/

/-- The token of a user, sealed under a nonce. -/
def tokenOf (server : ApiServer) (userId : Nat) (nonce : Nonce) : Text :=
  let c := server.box.sealBox (formatId userId).toBytes nonce.bytes server.key
  Base64.encode c ++ '.' :: Base64.encode nonce.bytes

def login (server : ApiServer) (username password : Text) (nonce : Nonce) (db : Database) : Database × Except Status LoginResponse :=
  match loginUser server.argon2 username password db with
  | (db, .error e) => (db, .error (.internal "Login error: ".toList e))
  | (db, .ok (.error .invalidPassword)) => (db, .error (.unauthenticated "Invalid login".toList))
  | (db, .ok (.error .notFound)) => (db, .error (.notFound "Unknown user".toList))
  | (db, .ok (.ok userId)) => (db, .ok { error := [], token := tokenOf server userId nonce, user := none })

def register (server : ApiServer) (username password ubiId salt : Text) (db : Database) :
    Database × Except Status RegisterResponse :=
  match server.hashPassword password salt with
  | none => (db, .ok { error := "password hashing failed".toList, user := none })
  | some passwordHash =>
    match registerUserUnsafe username passwordHash (some ubiId) db with
    | (db, .ok ()) => (db, .ok { error := [], user := none })
    | (db, .error .unique) =>
      (db, .error (.alreadyExists "Username already taken or Ubisoft ID already registered".toList))
    | (db, .error e) => (db, .error (.internal [] e))

/-! ## The `UsersAdmin` service -/

def delete (id : Text) (db : Database) : Database × Except Status Unit :=
  match findUserIdByUbiId id db.toTables with
  | none => (db, .error (.notFound "User not found".toList))
  | some userId =>
    match deleteUser userId db with
    | (db, .ok ()) => (db, .ok ())
    | (db, .error e) => (db, .error (.internal [] e))

/-! ## Authenticated calls -/

/-- The user id in a token. -/
def openToken (server : ApiServer) (authorization : Option Bytes) : Except Status Nat := do
  let some token := authorization | throw (.unauthenticated "Missing authorization".toList)
  let some token := toStr token | throw (.unauthenticated "Invalid token".toList)
  let [c, n] := token.splitOn '.' | throw (.unauthenticated "Invalid token".toList)
  let some c := Base64.decode c | throw (.unauthenticated "Invalid token".toList)
  let some n := Base64.decode n | throw (.unauthenticated "Invalid token".toList)
  let some nonce := Nonce.fromSlice n | throw (.unauthenticated "Invalid token".toList)
  let some userId := server.box.openBox c nonce.bytes server.key | throw (.unauthenticated "Invalid token".toList)
  let some userId := decodeUtf8 userId | throw (.unauthenticated "Invalid user".toList)
  let some userId := parseU32 userId | throw (.unauthenticated "Invalid user".toList)
  return userId

def checkToken (server : ApiServer) (now : Time) (metadata : Metadata) (db : Database) : Database × Except Status Metadata :=
  match openToken server metadata.authorization with
  | .error status => (db, .error status)
  | .ok userId =>
    match db.usernameOf userId with
    | none => (db, .error (.unauthenticated "Invalid user".toList))
    | some _ =>
      match touchApiPresence now userId db with
      | (db, .error e) => (db, .error (.internal "Presence heartbeat failed: ".toList e))
      | (db, .ok ()) => (db, .ok { metadata with userId := some (formatId userId).toBytes })

/-- The user an authenticated call acts for. -/
def authenticatedUserId (metadata : Metadata) : Except Status Nat := do
  let some userId := metadata.userId | throw (.unauthenticated "Missing authenticated user".toList)
  let some userId := toStr userId | throw (.unauthenticated "Invalid authenticated user".toList)
  let some userId := parseU32 userId | throw (.unauthenticated "Invalid authenticated user".toList)
  return userId

/-! ## Runs -/

/-- A call of the services with what the system contributes: the salt, the nonce. The handler of an authenticated call, and the
game server beside the services, execute operations of the store. -/
inductive ApiCall where
  | register (username password ubiId salt : Text)
  | login (username password : Text) (nonce : Nonce)
  | delete (id : Text)
  | authenticate (metadata : Metadata)
  | store (op : StorageOp)

/-- The answer to a call. -/
inductive ApiAnswer where
  | register (response : Except Status RegisterResponse)
  | login (response : Except Status LoginResponse)
  | delete (response : Except Status Unit)
  | authenticate (request : Except Status Metadata)
  | store

/-- A call at a time. -/
structure ApiInput where
  now : Time
  call : ApiCall

/-- One step of the services. -/
def step (server : ApiServer) (db : Database) (input : ApiInput) : Database × ApiAnswer :=
  match input.call with
  | .register username password ubiId salt => (register server username password ubiId salt db).map id .register
  | .login username password nonce => (login server username password nonce db).map id .login
  | .delete ubiId => (delete ubiId db).map id .delete
  | .authenticate metadata => (checkToken server input.now metadata db).map id .authenticate
  | .store op => (op.apply server.argon2 input.now db, .store)

end Scbl.Services.Api
