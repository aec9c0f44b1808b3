import Scbl.Lib.Handler
import Scbl.Prudp.Server
import Scbl.Rmc.Packet
import Scbl.Rmc.Stream
import Scbl.Storage.Operations

/-!
# RMC services

How a message becomes a call of a service (`quazal/src/rmc.rs` and the generated servers of `sc_bl_protocols`). A `Protocol` handles
the requests with its id. The generated server of a protocol decodes the parameters of a method, calls its implementation, and
encodes the answer; a method without an implementation decodes its parameters all the same. Which those methods are, and what
parameters they have, is a parameter of the model.

An implementation sees the connection of the caller and the open connections. The fields it can change are the user of its own
connection and, by sending requests, the sequence ids of the others; `CallState` has these, the tables of the store and what was
sent.
-/

namespace Scbl.Services

open Scbl.Lib Scbl.Rmc Scbl.Prudp Scbl.Storage

/-- Who calls: the connection, as it was when the message was complete, and the open connections. -/
structure Caller where
  env : Env
  ctx : Context
  zlib : Zlib
  signature : UInt32
  info : ClientInfo Unit
  registry : ClientRegistry Unit

/-- What a call changes. -/
structure CallState where
  userId : Option UInt32
  clientSequenceIds : UInt32 → UInt16
  db : Database
  events : List Event

/-- The implementation of a method. -/
abbrev RmcHandler (α : Type) := Handler Caller CallState Rmc.Error α

/-- The user of the connection; a connection without one is refused. -/
def loginRequired : RmcHandler UInt32 := do
  match ← Handler.inspect (·.userId) with
  | some userId => pure userId
  | none => Handler.fail .accessDenied

/-- An operation of the store at the time of the call; its errors are internal ones. -/
def stored {α : Type} (op : Time → Operation α) : RmcHandler α := fun c => Handler.operate (fun st =>
  let (db, result) := op c.env.unixTime.toNat st.db
  ({ st with db }, result.mapError (fun _ => .internalError))) c

/-- A query of the store at the time of the call; its errors are internal ones. -/
def queried {α : Type} (query : Time → Tables → Except StorageError α) : RmcHandler α :=
  stored (fun now db => (db, query now db.toTables))

/-- Asking for the user never panics. -/
theorem total_loginRequired : loginRequired.Total := by
  refine (Handler.total_inspect _).bind fun userId => ?_
  cases userId with
  | some userId => exact Handler.total_pure userId
  | none => exact Handler.total_fail _

/-- The store never panics. -/
theorem total_stored {α : Type} (op : Time → Operation α) : (stored op).Total := fun _ _ => Handler.ends_operate trivial

section Calls

variable {α β : Type} {c : Caller} {st st' : CallState}

/-- A handler that asks for the user goes on with the user of the connection. -/
theorem loginRequired_bind {userId : UInt32} (h : st.userId = some userId) (f : UInt32 → RmcHandler α) :
    (loginRequired >>= f) c st = f userId c st := by
  simp only [loginRequired, bind, Handler.inspect, Handler.operate, h]
  rfl

/-- Without a user it is refused. -/
theorem loginRequired_bind_none (h : st.userId = none) (f : UInt32 → RmcHandler α) :
    (loginRequired >>= f) c st = .ok (st, .error .accessDenied) := by
  simp only [loginRequired, bind, Handler.inspect, Handler.operate, h]
  rfl

/-- A handler that asks for the user and answers was called by one. -/
theorem loginRequired_answers {f : UInt32 → RmcHandler α} {a : α} (h : (loginRequired >>= f) c st = .ok (st', .ok a)) :
    ∃ userId, st.userId = some userId ∧ f userId c st = .ok (st', .ok a) := by
  cases huser : st.userId with
  | none =>
    rw [loginRequired_bind_none huser] at h
    nomatch (Prod.mk.inj (Except.ok.inj h)).2
  | some userId =>
    rw [loginRequired_bind huser] at h
    exact ⟨userId, rfl, h⟩

/-- An operation of the store answers what it gives. -/
theorem stored_eq (op : Time → Operation α) (c : Caller) (st : CallState) :
    stored op c st = .ok ({ st with db := (op c.env.unixTime.toNat st.db).1 },
      (op c.env.unixTime.toNat st.db).2.mapError (fun _ => .internalError)) := rfl

/-- A handler that uses the store goes on with what the operation gives. -/
theorem stored_bind {op : Time → Operation β} {b : β} (h : (op c.env.unixTime.toNat st.db).2 = .ok b) (f : β → RmcHandler α) :
    (stored op >>= f) c st = f b c { st with db := (op c.env.unixTime.toNat st.db).1 } := by
  simp only [bind, stored, Handler.operate, h]
  rfl

/-- It fails with an internal error when the operation fails. -/
theorem stored_bind_error {op : Time → Operation β} {e : StorageError} (h : (op c.env.unixTime.toNat st.db).2 = .error e)
    (f : β → RmcHandler α) :
    (stored op >>= f) c st = .ok ({ st with db := (op c.env.unixTime.toNat st.db).1 }, .error .internalError) := by
  simp only [bind, stored, Handler.operate, h]
  rfl

/-- A handler that uses the store and answers went on with what the operation gave. -/
theorem stored_answers {op : Time → Operation β} {f : β → RmcHandler α} {a : α} (h : (stored op >>= f) c st = .ok (st', .ok a)) :
    ∃ b, (op c.env.unixTime.toNat st.db).2 = .ok b ∧ f b c { st with db := (op c.env.unixTime.toNat st.db).1 } = .ok (st', .ok a) := by
  cases hop : (op c.env.unixTime.toNat st.db).2 with
  | error e =>
    rw [stored_bind_error hop] at h
    nomatch (Prod.mk.inj (Except.ok.inj h)).2
  | ok b =>
    rw [stored_bind hop] at h
    exact ⟨b, rfl, h⟩

end Calls

/-! ## Methods and protocols -/

/-- Decode the parameters of a method. -/
def decode (t : Ty) (parameters : Bytes) : RmcHandler t.Val :=
  match t.fromBytes parameters with
  | .ok request => pure request
  | .error _ => Handler.fail .fromStream

/-- Encode the answer of a method. -/
def encode (t : Ty) (answer : t.Val) : RmcHandler Bytes := do
  let c ← Handler.caller
  Handler.orPanic (t.write c.env.build c.env.mapOrder answer)

/-- A method with an implementation. -/
structure Method where
  id : UInt32
  request : Ty
  response : Ty
  call : request.Val → RmcHandler response.Val

/-- Call a method. -/
def Method.handle (m : Method) (parameters : Bytes) : RmcHandler Bytes := do
  let request ← decode m.request parameters
  let answer ← m.call request
  encode m.response answer

/-- A protocol. -/
structure Protocol where
  id : UInt16
  handle : Request → RmcHandler Bytes

/-- The parameters of the methods without an implementation, by protocol and method. -/
abbrev Unimplemented : Type := UInt16 → UInt32 → Option Ty

/-- A method without an implementation, or an unknown one. -/
def unimplementedMethod (parameters : Option Ty) (data : Bytes) : RmcHandler Bytes :=
  match parameters with
  | some t => do
    let _ ← decode t data
    Handler.fail .unimplementedMethod
  | none => Handler.fail .unknownMethod

/-- The generated server of a protocol. -/
def Protocol.generated (rest : Unimplemented) (id : UInt16) (methods : List Method) : Protocol where
  id
  handle request :=
    match methods.find? (·.id = request.methodId) with
    | some m => m.handle request.parameters
    | none => unimplementedMethod (rest id request.methodId) request.parameters

/-! ## The stream handler -/

/-- The protocols of a server, by id. -/
abbrev RmcRegistry : Type := AList (fun _ : UInt16 => Protocol)

/-- Register a protocol. -/
def RmcRegistry.registerProtocol (registry : RmcRegistry) (protocol : Protocol) : RmcRegistry :=
  AList.insert protocol.id protocol registry

/-- Handle the request of a message; a request for no protocol is refused. -/
def RmcRegistry.call (registry : RmcRegistry) (request : Request) : RmcHandler Bytes :=
  match registry.lookup request.protocolId with
  | some protocol => protocol.handle request
  | none => Handler.fail .unknownProtocol

/-- The response to a request. -/
def response (request : Request) : Except Rmc.Error Bytes → Response
  | .ok data =>
    { protocolId := request.protocolId, result := .ok { callId := request.callId, methodId := request.methodId, data } }
  | .error e =>
    { protocolId := request.protocolId, result := .error { errorCode := e.toErrorCode, callId := request.callId } }

/-- Handle a message: only requests are answered, an error with its code. -/
def RmcRegistry.handle (registry : RmcRegistry) (c : Caller) (st : CallState) (data : Bytes) :
    Except Panic (CallState × Except Prudp.Error Bytes) :=
  match Packet.fromBytes data with
  | .error _ => .ok (st, .error .streamHandler)
  | .ok (.response _) => .ok (st, .error .unimplemented)
  | .ok (.request request) => do
    let (st, result) ← registry.call request c st
    return (st, .ok (response request result).toBytes)

/-- The open connections after a call. -/
def updateRegistry (reg : ClientRegistry Unit) (sig : UInt32) (st : CallState) : ClientRegistry Unit :=
  { reg with
    clients := mapValues (fun s ci =>
      { ci with
        userId := if s = sig then st.userId else ci.userId
        clientSequenceId := st.clientSequenceIds s }) reg.clients }

/-- What a call begins with. -/
def beginCall (reg : ClientRegistry Unit) (ci : ClientInfo Unit) (db : Database) : CallState where
  userId := ci.userId
  clientSequenceIds s := ((reg.clients.lookup s).map (·.clientSequenceId)).getD 0
  db
  events := []

/-- The handler of the encrypted streams. -/
def RVSecHandler (ctx : Context) (zlib : Zlib) (registry : RmcRegistry) : StreamHandler Database Unit where
  handle env sig reg db data :=
    match reg.clients.lookup sig with
    | none => .ok { registry := reg, app := db, events := [], answer := .error .unimplemented }
    | some ci => do
      let (st, answer) ← registry.handle { env, ctx, zlib, signature := sig, info := ci, registry := reg } (beginCall reg ci db) data
      return { registry := updateRegistry reg sig st, app := st.db, events := st.events, answer }
  keeps_fragments := by
    intro env sig reg db data r h s
    cases hc : reg.clients.lookup sig with
    | none =>
      simp only [hc] at h
      cases h
      rfl
    | some ci =>
      simp only [hc] at h
      obtain ⟨⟨st, answer⟩, -, h⟩ := bind_eq_ok.mp h
      cases h
      simp only [updateRegistry, lookup_mapValues, Option.map_map]
      rfl

end Scbl.Services
