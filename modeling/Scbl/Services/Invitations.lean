import Scbl.Services.GameSession
import Scbl.Storage.Statements

/-!
# Invitations of the gRPC services

What the invitations service of `dedicated-server/src/api.rs` reads of the sessions a user can invite into.
-/

namespace Scbl.Services.Api

open Scbl.Lib Scbl.Storage Scbl.Services.GameSessionService

/-- The kind of an invitation into a session: by its first property of id 113 that is the class of a room or of a lobby. -/
def sessionInviteKind (session : Storage.GameSession) : Option Nat := do
  let attributes ← parseProperties session.attributes
  attributes.findSome? (fun property =>
    if property.id ≠ 113 then none
    else
      match property.value.toNat with
      | 0 => some INVITE_KIND_PRIVATE_ROOM
      | 1 => some INVITE_KIND_LOBBY_PARTY
      | _ => none)

end Scbl.Services.Api
