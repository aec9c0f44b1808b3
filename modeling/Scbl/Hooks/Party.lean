import Scbl.Config
import Scbl.Lib.Run

/-!
# The party of the overlay

The members that the overlay tells the game of, and the calls and events that set them (`party.rs` of the hooks). An account id that a
call is given is a null pointer or a text.
-/

namespace Scbl.Hooks

open Scbl.Lib

def memberFlagLeader : UInt32 := 1

def memberFlagLocal : UInt32 := 2

structure PartyMemberState where
  accountId : Text
  username : Text
  flags : UInt32
  deriving DecidableEq, Repr

/-- Whether the flag of a leader is set. -/
def PartyMemberState.isLeader (member : PartyMemberState) : Bool := member.flags &&& memberFlagLeader ≠ 0

/-- The account and the name of the player. -/
structure Identity where
  accountId : Text
  username : Text
  deriving DecidableEq, Repr

/-- A friend that the server lists. -/
structure Friend where
  id : Text
  username : Text
  isOnline : Bool
  deriving DecidableEq, Repr

structure UplayOverlapped where
  unk : UInt32
  isCompleted : UInt32
  result : UInt32
  deriving DecidableEq, Repr

def UplayOverlapped.setSuccess (overlapped : UplayOverlapped) : UplayOverlapped := { overlapped with isCompleted := 1, result := 0 }

structure PartyState where
  partyInitialized : Bool := false
  socialPartyActive : Bool := false
  gameInviteActive : Bool := false
  gameInviteAccepted : Bool := false
  partyMembers : List PartyMemberState := []
  deriving DecidableEq, Repr

/-- What a call returns, and what becomes of its operation. -/
structure PartyAnswer where
  result : Bool
  overlapped : Option UplayOverlapped
  deriving DecidableEq, Repr

def accountIdText (accountId : Option Text) : Text := accountId.getD "<null>".toList

def localMember (flags : UInt32) (identity : Identity) : PartyMemberState :=
  { accountId := identity.accountId, username := identity.username, flags }

def setReceiverParty (localIdentity : Option Identity) (senderId senderName : Text) : List PartyMemberState :=
  { accountId := senderId, username := senderName, flags := memberFlagLeader } :: (localIdentity.map (localMember memberFlagLocal)).toList

/-- The friends are those that the server lists, if it answers. -/
def setLocalLeaderParty (localIdentity : Option Identity) (listFriends : Option (List Friend)) (inviteeId : Text) : List PartyMemberState :=
  let inviteeName := (((listFriends.getD []).find? (·.id = inviteeId)).map (·.username)).getD inviteeId
  (localIdentity.map (localMember (memberFlagLeader ||| memberFlagLocal))).toList ++
    [{ accountId := inviteeId, username := inviteeName, flags := 0 }]

def observeFriendGameInviteAccepted (localIdentity : Option Identity) (accountId username : Text) (state : PartyState) : PartyState :=
  { state with
    partyInitialized := true
    socialPartyActive := true
    partyMembers := setReceiverParty localIdentity accountId username }

def observePartyGameInviteAccepted (localIdentity : Option Identity) (kind : Int) (accountId username : Text) (state : PartyState) : PartyState :=
  let state := { state with partyInitialized := true, gameInviteActive := true, gameInviteAccepted := true }
  if kind = 3 then { state with socialPartyActive := true, partyMembers := setReceiverParty localIdentity accountId username } else state

def inviteToParty (localIdentity : Option Identity) (listFriends : Option (List Friend)) (accountId : Option Text)
    (overlapped : Option UplayOverlapped) (state : PartyState) : PartyState × PartyAnswer :=
  let accountId := accountIdText accountId
  if accountId = "<null>".toList then (state, { result := false, overlapped })
  else
    ({ state with
        partyInitialized := true
        socialPartyActive := true
        partyMembers := setLocalLeaderParty localIdentity listFriends accountId },
      { result := true, overlapped := overlapped.map (·.setSuccess) })

/-- The body of the loop of `UPLAY_PARTY_PromoteToLeader`. -/
def promoted (accountId : Text) (member : PartyMemberState) : PartyMemberState :=
  if member.accountId = accountId then { member with flags := member.flags ||| memberFlagLeader }
  else { member with flags := member.flags &&& ~~~memberFlagLeader }

def promoteToLeader (accountId : Option Text) (overlapped : Option UplayOverlapped) (state : PartyState) : PartyState × PartyAnswer :=
  let accountId := accountIdText accountId
  let found := state.partyMembers.any (·.accountId = accountId)
  ({ state with partyMembers := state.partyMembers.map (promoted accountId) },
    { result := found, overlapped := if found then overlapped.map (·.setSuccess) else overlapped })

/-- A call of the game, or an event that it takes. -/
inductive PartyCall where
  | inviteToParty (listFriends : Option (List Friend)) (accountId : Option Text) (overlapped : Option UplayOverlapped)
  | promoteToLeader (accountId : Option Text) (overlapped : Option UplayOverlapped)
  | friendGameInviteAccepted (accountId username : Text)
  | partyGameInviteAccepted (kind : Int) (accountId username : Text)
  deriving DecidableEq, Repr

/-- The party after a call or an event, and what a call answers. -/
def partyStep (localIdentity : Option Identity) (state : PartyState) : PartyCall → PartyState × Option PartyAnswer
  | .inviteToParty listFriends accountId overlapped => (inviteToParty localIdentity listFriends accountId overlapped state).map id some
  | .promoteToLeader accountId overlapped => (promoteToLeader accountId overlapped state).map id some
  | .friendGameInviteAccepted accountId username => (observeFriendGameInviteAccepted localIdentity accountId username state, none)
  | .partyGameInviteAccepted kind accountId username => (observePartyGameInviteAccepted localIdentity kind accountId username state, none)

/-! ## Leaders -/

/-- The number of members with the flag of a leader. -/
def leaders (members : List PartyMemberState) : Nat := members.countP (·.isLeader)

theorem flags_or_leader (flags : UInt32) : (flags ||| memberFlagLeader) &&& memberFlagLeader ≠ 0 := by
  intro h
  have hbit := congrArg (fun n : UInt32 => n.toBitVec.getLsbD 0) h
  simp [memberFlagLeader] at hbit

theorem flags_and_not_leader (flags : UInt32) : (flags &&& ~~~memberFlagLeader) &&& memberFlagLeader = 0 := by
  rw [UInt32.and_assoc, UInt32.not_and_self, UInt32.and_zero]

/-- Who is a leader after a promotion. -/
@[simp] theorem isLeader_promoted (accountId : Text) (member : PartyMemberState) :
    (promoted accountId member).isLeader = decide (member.accountId = accountId) := by
  rw [promoted]
  split
  · rename_i h
    simpa [PartyMemberState.isLeader, h] using flags_or_leader member.flags
  · rename_i h
    simpa [PartyMemberState.isLeader, h] using flags_and_not_leader member.flags

/-- A promotion leaves the members with the account as the leaders. -/
theorem leaders_promoted (accountId : Text) (members : List PartyMemberState) :
    leaders (members.map (promoted accountId)) = members.countP (·.accountId = accountId) := by
  rw [leaders, List.countP_map]
  exact List.countP_congr fun member _ => by simp

theorem leaders_setReceiverParty (identity : Identity) (senderId senderName : Text) :
    leaders (setReceiverParty (some identity) senderId senderName) = 1 := by
  have hsender : memberFlagLeader &&& memberFlagLeader ≠ 0 := by decide
  have hown : ¬memberFlagLocal &&& memberFlagLeader ≠ 0 := by decide
  simp only [leaders, setReceiverParty, Option.map_some, Option.toList_some, localMember, List.countP_cons, PartyMemberState.isLeader,
    decide_eq_true hsender, decide_eq_false hown, List.countP_nil, if_true, Bool.false_eq_true, if_false]

theorem leaders_setLocalLeaderParty (identity : Identity) (listFriends : Option (List Friend)) (inviteeId : Text) :
    leaders (setLocalLeaderParty (some identity) listFriends inviteeId) = 1 := by
  have hown : (memberFlagLeader ||| memberFlagLocal) &&& memberFlagLeader ≠ 0 := by decide
  have hinvitee : ¬(0 : UInt32) &&& memberFlagLeader ≠ 0 := by decide
  simp only [leaders, setLocalLeaderParty, Option.map_some, Option.toList_some, localMember, List.singleton_append, List.countP_cons,
    PartyMemberState.isLeader, decide_eq_true hown, decide_eq_false hinvitee, List.countP_nil, if_true, Bool.false_eq_true, if_false]

end Scbl.Hooks
