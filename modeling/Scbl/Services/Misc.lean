import Scbl.Lib.HashMap
import Scbl.Services.Api
import Scbl.Services.Invitations

/-!
# Invitations by the gRPC services

The handlers of `dedicated-server/src/api.rs` that invite a user, tell a user of an invitation, and keep the sessions that hosts publish
to the game. The services run many of them side by side: a handler waits wherever it awaits the store or the lock of the published
sessions, and everything else may happen before it goes on.
-/

namespace Scbl.Services.Api

open Scbl.Lib Scbl.Storage

/-! ## Answers -/

/-- The code of a status. -/
inductive Code where
  | unauthenticated | notFound | alreadyExists | invalidArgument | failedPrecondition | internal
  deriving DecidableEq, Repr

/-- Why a call is refused; the error of the store stands behind the message. -/
structure Refusal where
  code : Code
  message : Text
  error : Option StorageError := none
  deriving DecidableEq, Repr

/-- The refusal of a call that is not authenticated. -/
def Refusal.ofStatus : Status → Refusal
  | .unauthenticated message => { code := .unauthenticated, message }
  | .notFound message => { code := .notFound, message }
  | .alreadyExists message => { code := .alreadyExists, message }
  | .internal context error => { code := .internal, message := context, error := some error }

/-- What a host publishes of its session. -/
structure UplayGameSession where
  id : Nat
  data : Bytes
  flags : Nat
  inviteOnly : Bool
  deriving DecidableEq, Repr

/-- An invitation that a user is told of. -/
structure InviteEvent where
  id : Nat
  sender : Option User
  forceJoin : Bool
  kind : Nat
  gameSession : Option UplayGameSession
  deriving DecidableEq, Repr

inductive Response where
  | invite
  | event (invite : Option InviteEvent)
  | setGameSession
  | clearGameSession
  deriving DecidableEq, Repr

def inviteRequiresUplayGameSession (kind : Nat) : Bool := kind = INVITE_KIND_PRIVATE_ROOM ∨ kind = INVITE_KIND_PARTY_FOLLOW

def inviteForcesJoin (kind : Nat) : Bool := kind = INVITE_KIND_PARTY_FOLLOW ∨ kind = INVITE_KIND_LOBBY_RESTORE

def MAX_UPLAY_GAME_SESSION_DATA : Nat := 16 * 1024

def validateUplayGameSession (data : Bytes) : Bool := data ≠ [] ∧ data.length ≤ MAX_UPLAY_GAME_SESSION_DATA

def projectInviteUplayGameSession (kind inviteSessionId : Nat) (published : Option UplayGameSession) : Option UplayGameSession :=
  published.map (fun session => if kind = INVITE_KIND_PRIVATE_ROOM then { session with id := inviteSessionId } else session)

/-- The newest session that can be invited into, and the kind of the invitation. -/
def inviteTarget (hostSessions : List Storage.GameSession) : Option (Storage.GameSession × Nat) :=
  hostSessions.findSome? (fun session => (sessionInviteKind session).map (fun kind => (session, kind)))

/-! ## Handlers -/

inductive Request where
  | invite (id : Text)
  | event
  | setGameSession (id : Nat) (data : Bytes) (flags : Nat) (inviteOnly : Bool)
  | clearGameSession
  deriving DecidableEq, Repr

/-- A handler that waits, with what it knows by then. -/
inductive Task where
  /-- `invite` looks for the receiver. -/
  | invite (sender : Nat) (receiver : Text)
  /-- `invite` looks for the sessions of the sender. -/
  | inviteTo (sender receiverId : Nat)
  /-- `invite` adds the invitation. -/
  | inviteInto (sender receiverId : Nat) (session : Storage.GameSession) (kind : Nat)
  /-- `event` takes an invitation. -/
  | event (userId : Nat)
  /-- `event` looks for the sender. -/
  | eventOf (userId : Nat) (invite : Invite)
  /-- `event` reads what the sender has published. -/
  | eventFrom (userId : Nat) (invite : Invite) (sender : Storage.User)
  /-- `set_game_session` publishes a session. -/
  | setGameSession (userId : Nat) (session : UplayGameSession)
  /-- `clear_game_session` takes it back. -/
  | clearGameSession (userId : Nat)
  deriving DecidableEq, Repr

/-- Where a handler comes to: it waits again, or it answers. -/
inductive Turn where
  | waits (task : Task)
  | answers (response : Except Refusal Response)

def refuse (code : Code) (message : String) : Turn := .answers (.error { code, message := message.toList })

/-- The handler of a request, up to where it first waits. -/
def handle (metadata : Metadata) (request : Request) : Except Refusal Task :=
  match authenticatedUserId metadata with
  | .error status => .error (.ofStatus status)
  | .ok userId =>
    match request with
    | .invite id => .ok (.invite userId id)
    | .event => .ok (.event userId)
    | .setGameSession id data flags inviteOnly =>
      if validateUplayGameSession data then .ok (.setGameSession userId { id, data, flags, inviteOnly })
      else .error { code := .invalidArgument, message := "Uplay GameSession data is empty or too large".toList }
    | .clearGameSession => .ok (.clearGameSession userId)

/-- `invite`, once the receiver was looked for. -/
def inviteReceiver (sender : Nat) : Option Nat → Turn
  | none => refuse .notFound "User not found"
  | some receiverId => if receiverId = sender then refuse .invalidArgument "Cannot invite yourself" else .waits (.inviteTo sender receiverId)

/-- `invite`, once the sessions of the sender were looked for. -/
def inviteSession (sender receiverId : Nat) : Except StorageError (List Storage.GameSession) → Turn
  | .error e => .answers (.error { code := .internal, message := "Couldn't resolve invite target: ".toList, error := some e })
  | .ok hostSessions =>
    match inviteTarget hostSessions with
    | none => refuse .failedPrecondition "No active lobby or private room to invite into"
    | some (session, kind) => .waits (.inviteInto sender receiverId session kind)

/-- `invite`, once the invitation was added. -/
def inviteAdded : Except StorageError (Option Nat) → Turn
  | .error e => .answers (.error { code := .internal, message := "Couldn't add invite: ".toList, error := some e })
  | .ok none => refuse .failedPrecondition "Invite target is no longer joinable"
  | .ok (some _) => .answers (.ok .invite)

/-- `event`, once an invitation was taken. -/
def eventTaken (userId : Nat) : Except StorageError (Option Invite) → Turn
  | .error e => .answers (.error { code := .internal, message := [], error := some e })
  | .ok none => .answers (.ok (.event none))
  | .ok (some invite) => .waits (.eventOf userId invite)

structure DebugConfig where
  forceJoins : Bool
  deriving DecidableEq, Repr

/-- The answer of `event`, with what the sender has published. -/
def eventAnswer (config : DebugConfig) (invite : Invite) (sender : Storage.User) (published : Option UplayGameSession) : Turn :=
  .answers (.ok (.event (some {
    id := invite.id
    sender := some { id := sender.ubiId, username := sender.username, ips := [] }
    forceJoin := config.forceJoins || inviteForcesJoin invite.kind
    kind := invite.kind
    gameSession := projectInviteUplayGameSession invite.kind invite.sessionId published })))

/-- `event`, once the sender was looked for. -/
def eventSender (config : DebugConfig) (userId : Nat) (invite : Invite) : Except StorageError (Option Storage.User) → Turn
  | .error e => .answers (.error { code := .internal, message := [], error := some e })
  | .ok none => refuse .notFound ""
  | .ok (some sender) =>
    if inviteRequiresUplayGameSession invite.kind then .waits (.eventFrom userId invite sender)
    else eventAnswer config invite sender none

/-! ## The services -/

/-- The store, what hosts have published, and the handlers that wait, by the numbers of their calls. -/
structure MiscState where
  db : Database
  uplayGameSessions : AList (fun _ : Nat => UplayGameSession)
  tasks : AList (fun _ : Nat => Task)
  calls : Nat

/-- A handler goes on. -/
def resume (config : DebugConfig) (now : Time) (state : MiscState) : Task → MiscState × Turn
  | .invite sender receiver => (state, inviteReceiver sender (findUserIdByUbiId receiver state.db.toTables))
  | .inviteTo sender receiverId => (state, inviteSession sender receiverId (findHostSessions sender state.db.toTables))
  | .inviteInto sender receiverId session kind =>
    let added := addInvite now sender receiverId kind session.sessionType session.sessionId state.db
    ({ state with db := added.1 }, inviteAdded added.2)
  | .event userId =>
    let taken := takeInvite now userId state.db
    ({ state with db := taken.1 }, eventTaken userId taken.2)
  | .eventOf userId invite => (state, eventSender config userId invite (findUserById invite.sender state.db.toTables))
  | .eventFrom _ invite sender => (state, eventAnswer config invite sender (state.uplayGameSessions.lookup invite.sender))
  | .setGameSession userId session =>
    ({ state with uplayGameSessions := state.uplayGameSessions.insert userId session }, .answers (.ok .setGameSession))
  | .clearGameSession userId =>
    ({ state with uplayGameSessions := state.uplayGameSessions.erase userId }, .answers (.ok .clearGameSession))

/-- Whether an operation adds an invitation sent by hand. Only `invite` executes that one. -/
def addsInvite : StorageOp → Bool
  | .addInvite .. => true
  | _ => false

/-- What happens to the services: a call comes in, a handler goes on, or the game server and the other services execute an operation
of the store. -/
inductive MiscEvent where
  | call (metadata : Metadata) (request : Request)
  | resume (call : Nat)
  | store (op : StorageOp) (own : addsInvite op = false)

/-- What happens at a time. -/
structure MiscInput where
  now : Time
  event : MiscEvent

/-- What goes out: nothing, the refusal of a call, or the answer to a call by the handler that waited last. -/
inductive MiscOutput where
  | nothing
  | refused (refusal : Refusal)
  | answered (call : Nat) (task : Task) (response : Except Refusal Response)
  deriving DecidableEq

/-- One step of the services. -/
def miscStep (argon2 : Argon2) (config : DebugConfig) (state : MiscState) (input : MiscInput) : MiscState × MiscOutput :=
  match input.event with
  | .call metadata request =>
    match handle metadata request with
    | .error refusal => (state, .refused refusal)
    | .ok task => ({ state with tasks := state.tasks.insert state.calls task, calls := state.calls + 1 }, .nothing)
  | .resume call =>
    match state.tasks.lookup call with
    | none => (state, .nothing)
    | some task =>
      match resume config input.now state task with
      | (state, .waits task) => ({ state with tasks := state.tasks.insert call task }, .nothing)
      | (state, .answers response) => ({ state with tasks := state.tasks.erase call }, .answered call task response)
  | .store op _ => ({ state with db := (Storage.step argon2 state.db { now := input.now, op }).1 }, .nothing)

end Scbl.Services.Api
