import Scbl.Lemmas.Parts
import Scbl.Lemmas.Sessions
import Mathlib.Logic.Relation

/-!
# Operations as sequences of statements

Whatever an operation does, the tables after it come from those before it by a sequence of accepted statements (`executes_step`).
A property that every statement keeps is kept by every operation. The statements on sessions and participants are set apart from
the others, since most operations of the store execute only the others.
-/

namespace Scbl.Storage

open Scbl.Lib

/-- What an invitation is about, which no update changes. -/
structure InviteIdentity where
  sender : Nat
  kind : Nat
  sessionType : Nat
  sessionId : Nat
  deriving DecidableEq, Repr

/-- What the invitation of a row is about. -/
def InviteRow.identity (i : InviteRow) : InviteIdentity :=
  { sender := i.sender, kind := i.kind, sessionType := i.sessionType, sessionId := i.sessionId }

/-- Two rows are states of one invitation. -/
structure InviteRow.SameInvite (i j : InviteRow) : Prop where
  rowid : i.rowid = j.rowid
  receiver : i.receiver = j.receiver
  identity : i.identity = j.identity

namespace InviteRow.SameInvite

variable {i j k : InviteRow}

theorem refl (i : InviteRow) : i.SameInvite i := ⟨rfl, rfl, rfl⟩

theorem trans (h : i.SameInvite j) (h' : j.SameInvite k) : i.SameInvite k := ⟨h.1.trans h'.1, h.2.trans h'.2, h.3.trans h'.3⟩

theorem sender (h : i.SameInvite j) : i.sender = j.sender := congrArg InviteIdentity.sender h.identity

theorem kind (h : i.SameInvite j) : i.kind = j.kind := congrArg InviteIdentity.kind h.identity

theorem sessionType (h : i.SameInvite j) : i.sessionType = j.sessionType := congrArg InviteIdentity.sessionType h.identity

theorem sessionId (h : i.SameInvite j) : i.sessionId = j.sessionId := congrArg InviteIdentity.sessionId h.identity

end InviteRow.SameInvite

/-- The statements on invitations and parties. -/
inductive PartyStatement : (Tables → Tables) → Prop where
  | insertParty (leaderId : Nat) : PartyStatement (·.insertParty leaderId)
  | deleteParties (p : PartyRow → Bool) : PartyStatement (·.deleteParties p)
  | upsertPartyMember (userId partyId : Nat) : PartyStatement (·.upsertPartyMember userId partyId)
  | deletePartyMembers (p : PartyMemberRow → Bool) : PartyStatement (·.deletePartyMembers p)
  | insertInvite (now : Time) (sender receiver kind sessionType sessionId : Nat) (partyId : Option Nat) (expiresAt : Time) :
    PartyStatement (·.insertInvite now sender receiver kind sessionType sessionId partyId expiresAt)
  | updateInvites (p : Tables → InviteRow → Bool) (f : InviteRow → InviteRow) (h : ∀ i, InviteRow.SameInvite i (f i)) :
    PartyStatement (fun t => t.updateInvites (p t) f)
  | deleteInvites (p : Tables → InviteRow → Bool) : PartyStatement (fun t => t.deleteInvites (p t))

/-- The statements on other tables than those of sessions and participants. -/
inductive SideStatement : (Tables → Tables) → Prop where
  | party {f : Tables → Tables} (h : PartyStatement f) : SideStatement f
  | insertUser (username passwordHash : Text) (ubiId : Option Text) : SideStatement (·.insertUser username passwordHash ubiId)
  | updateUsers (p : UserRow → Bool) (f : UserRow → UserRow) : SideStatement (·.updateUsers p f)
  | insertUserSession (id : Text) (userId : Nat) : SideStatement (·.insertUserSession id userId)
  | deleteUserSessions (p : UserSessionRow → Bool) : SideStatement (·.deleteUserSessions p)
  | insertStationUrl (userId : Nat) (url : Text) : SideStatement (·.insertStationUrl userId url)
  | deleteStationUrls (p : StationUrlRow → Bool) : SideStatement (·.deleteStationUrls p)

/-- The statements of the store. -/
inductive Statement : (Tables → Tables) → Prop where
  | side {f : Tables → Tables} (h : SideStatement f) : Statement f
  | insertGameSession (typeId creatorId : Nat) (attributes : Text) : Statement (·.insertGameSession typeId creatorId attributes)
  | updateGameSessions (p : GameSessionRow → Bool) (f : GameSessionRow → GameSessionRow) : Statement (·.updateGameSessions p f)
  | insertParticipant (gameId userId : Nat) : Statement (·.insertParticipant gameId userId)
  | deleteParticipants (p : Tables → ParticipantRow → Bool) : Statement (fun t => t.deleteParticipants (p t))
  | deleteUser (userId : Nat) : Statement (·.deleteUser userId)

/-- A kind of statements includes those on invitations and parties. -/
class IncludesParty (W : (Tables → Tables) → Prop) : Prop where
  of_party : ∀ {f : Tables → Tables}, PartyStatement f → W f

instance : IncludesParty PartyStatement := ⟨id⟩
instance : IncludesParty SideStatement := ⟨.party⟩
instance : IncludesParty Statement := ⟨fun h => .side (.party h)⟩

/-- One accepted statement of a kind. -/
def Accepts (W : (Tables → Tables) → Prop) (db db' : Database) : Prop := ∃ f, W f ∧ (f db.toTables).check = .ok db'

/-- A sequence of accepted statements of a kind. -/
def Executes (W : (Tables → Tables) → Prop) : Database → Database → Prop := Relation.ReflTransGen (Accepts W)

instance (W : (Tables → Tables) → Prop) : IsPreorder Database (Executes W) where
  refl _ := Relation.ReflTransGen.refl
  trans _ _ _ := Relation.ReflTransGen.trans

/-- What every statement relates, a sequence of statements relates. -/
theorem Executes.rel {W : (Tables → Tables) → Prop} {R : Tables → Tables → Prop} {db db' : Database}
    (h : Executes W db db') (hrefl : ∀ t, R t t) (htrans : ∀ t t' t'', R t t' → R t' t'' → R t t'')
    (hstep : ∀ f, W f → ∀ t, R t (f t)) : R db.toTables db'.toTables := by
  induction h with
  | refl => exact hrefl _
  | tail _ hlast ih =>
    obtain ⟨f, hf, hcheck⟩ := hlast
    refine htrans _ _ _ ih ?_
    rw [Tables.toTables_of_check hcheck]
    exact hstep f hf _

namespace Executions

section

variable {ρ α : Type} {W : (Tables → Tables) → Prop}

/-- One statement. -/
theorem moves_statement {f : Tables → Tables} (hf : W f) : Moves (Executes W) (statement f : StorageTx ρ Unit) :=
  Moves.execute fun _ _ h => Relation.ReflTransGen.single ⟨f, hf, h⟩

/-- One statement on invitations or parties. -/
theorem moves_party [IncludesParty W] {f : Tables → Tables} (hf : PartyStatement f) :
    Moves (Executes W) (statement f : StorageTx ρ Unit) :=
  moves_statement (IncludesParty.of_party hf)

/-- The statements on other tables leave sessions and participants alone. -/
theorem sameSessions_of_executes {db db' : Database} (h : Executes SideStatement db db') : db.SameSessions db'.toTables := by
  refine h.rel (fun t => ⟨rfl, rfl⟩) (fun t t' t'' h h' => ⟨h'.1.trans h.1, h'.2.trans h.2⟩) (fun f hf t => ?_)
  cases hf with
  | party hparty => cases hparty <;> exact ⟨rfl, rfl⟩
  | insertStationUrl userId url =>
    simp only [Tables.insertStationUrl]
    split <;> exact ⟨rfl, rfl⟩
  | _ => exact ⟨rfl, rfl⟩

/-! ## Invitations and parties -/

variable [IncludesParty W]

theorem moves_findOrInsertParty (leaderId : Nat) :
    Moves (Executes W) (findOrInsertParty leaderId : StorageTx ρ Nat) := by
  refine Moves.bind (Moves.select _) fun found => ?_
  cases found with
  | none => exact Moves.bind (Moves.select _) fun _ => Moves.bind (moves_party (.insertParty _)) fun _ => Moves.pure _
  | some partyId => exact Moves.pure _

theorem moves_ensurePartyForLeader (leaderId : Nat) :
    Moves (Executes W) (ensurePartyForLeader leaderId : StorageTx ρ Nat) :=
  Moves.bind (moves_findOrInsertParty leaderId) fun _ => Moves.bind (moves_party (.upsertPartyMember _ _)) fun _ =>
    Moves.pure _

theorem moves_queuePartyFollowInvite (now : Time) (leaderId sessionType sessionId partyId receiverId : Nat) :
    Moves (Executes W)
      (queuePartyFollowInvite now leaderId sessionType sessionId partyId receiverId : StorageTx ρ Unit) := by
  refine Moves.bind (moves_party (.deleteInvites fun _ => _)) fun _ => Moves.bind (Moves.select _) fun pending => ?_
  split
  · exact Moves.pure _
  · exact moves_party (.insertInvite ..)

theorem moves_queuePartyFollowInvites (now : Time) (leaderId sessionType sessionId : Nat) :
    Moves (Executes W) (queuePartyFollowInvites now leaderId sessionType sessionId : StorageTx ρ Unit) := by
  refine Moves.bind (Moves.select _) fun found => ?_
  cases found with
  | none => exact Moves.pure _
  | some partyId =>
    refine Moves.bind (Moves.select _) fun joined => ?_
    split
    · exact Moves.bind (Moves.select _) fun members => Moves.forM (moves_queuePartyFollowInvite now leaderId _ _ _) members
    · exact Moves.pure _

theorem moves_joinInvitingParty (now : Time) (userId typeId sessionId : Nat) :
    Moves (Executes W) (joinInvitingParty now userId typeId sessionId : StorageTx ρ Unit) := by
  refine Moves.bind (Moves.select _) fun found => ?_
  cases found with
  | none => exact Moves.pure _
  | some invite =>
    exact Moves.bind (moves_party (.deleteParties _)) fun _ => moves_party (.upsertPartyMember _ _)

theorem moves_queueLobbyRestore (now : Time) (creatorId typeId lobbySessionId partyId queued receiverId : Nat) :
    Moves (Executes W)
      (queueLobbyRestore now creatorId typeId lobbySessionId partyId queued receiverId : StorageTx ρ Nat) := by
  refine Moves.bind (Moves.select _) fun inLobby => ?_
  split
  · exact Moves.pure _
  · refine Moves.bind (moves_party (.updateInvites (fun _ => _) _ fun _ => ⟨rfl, rfl, rfl⟩)) fun _ => ?_
    exact Moves.bind (moves_party (.insertInvite ..)) fun _ => Moves.pure _

theorem moves_invitingParty (kind senderId : Nat) :
    Moves (Executes W) (invitingParty kind senderId : StorageTx ρ (Option Nat)) := by
  unfold invitingParty
  split
  · exact Moves.bind (moves_ensurePartyForLeader senderId) fun _ => Moves.pure _
  · exact Moves.pure _

end

variable (db : Database) (now : Time)

/-! ## The operations on other tables -/

theorem executes_loginUser (argon2 : Argon2) (username password : Text) :
    Executes SideStatement db (loginUser argon2 username password db).1 := by
  refine Moves.transaction (Moves.bind (Moves.select _) fun found => ?_) db
  cases found with
  | none => exact Moves.pure _
  | some user =>
    simp only []
    split
    · exact Moves.abort _
    · exact Moves.pure _
    · exact Moves.bind (moves_statement (.updateUsers _ _)) fun _ => Moves.pure _

theorem executes_touchApiPresence (userId : Nat) : Executes SideStatement db (touchApiPresence now userId db).1 :=
  Moves.transaction (moves_statement (.updateUsers _ _)) db

theorem executes_registerUserUnsafe (username passwordHash : Text) (ubiId : Option Text) :
    Executes SideStatement db (registerUserUnsafe username passwordHash ubiId db).1 :=
  Moves.transaction (moves_statement (.insertUser _ _ _)) db

theorem executes_createUserSession (userId : Nat) (key : Bytes) :
    Executes SideStatement db (createUserSession userId key db).1 :=
  Moves.transaction (Moves.bind (moves_statement (.insertUserSession _ _)) fun _ => moves_statement (.updateUsers _ _)) db

theorem executes_registerUrls (userId : Nat) (urls : List Text) : Executes SideStatement db (registerUrls userId urls db).1 :=
  Moves.transaction (Moves.bind (moves_statement (.deleteStationUrls _)) fun _ =>
    Moves.forM (fun _ => moves_statement (.insertStationUrl _ _)) _) db

section

variable {W : (Tables → Tables) → Prop} [IncludesParty W]

theorem executes_addInvite (senderId receiverId kind sessionType sessionId : Nat) :
    Executes W db (addInvite now senderId receiverId kind sessionType sessionId db).1 := by
  refine Moves.transaction ?_ db
  split
  · refine Moves.bind (moves_invitingParty kind senderId) fun partyId =>
      Moves.bind (moves_party (.deleteInvites fun _ => _)) fun _ =>
        Moves.bind (moves_party (.deleteInvites fun _ => _)) fun _ => Moves.bind (Moves.select _) fun hosts => ?_
    split
    · exact Moves.bind (Moves.select _) fun _ => Moves.bind (moves_party (.insertInvite ..)) fun _ => Moves.pure _
    · exact Moves.rollback _
  · exact Moves.pure _

theorem executes_takeInvite (userId : Nat) : Executes W db (takeInvite now userId db).1 := by
  refine Moves.transaction ?_ db
  refine Moves.bind (moves_party (.deleteInvites _)) fun _ =>
    Moves.bind (moves_party (.updateInvites _ _ fun _ => ⟨rfl, rfl, rfl⟩)) fun _ => Moves.bind (Moves.select _) fun found => ?_
  cases found with
  | none => exact Moves.pure _
  | some row =>
    exact Moves.bind (moves_party (.updateInvites (fun _ => _) _ fun _ => ⟨rfl, rfl, rfl⟩)) fun _ => Moves.pure _

theorem executes_acceptInvite (userId inviteId : Nat) : Executes W db (acceptInvite now userId inviteId db).1 := by
  refine Moves.transaction ?_ db
  refine Moves.bind (moves_party (.deleteInvites _)) fun _ =>
    Moves.bind (moves_party (.updateInvites (fun _ => _) _ fun _ => ⟨rfl, rfl, rfl⟩)) fun _ =>
      Moves.bind (Moves.select _) fun found => ?_
  cases found with
  | none => exact Moves.pure _
  | some invite =>
    simp only []
    split
    · refine Moves.bind (Moves.select _) fun valid => ?_
      split
      · exact Moves.pure _
      · exact Moves.rollback _
    · exact Moves.pure _

end

/-- A statement on neither invitations nor parties is a statement. -/
theorem statement_of_plain {f : Tables → Tables} (hf : PlainStatement f) : Statement f := by
  cases hf with
  | insertGameSession => exact .insertGameSession ..
  | updateGameSessions => exact .updateGameSessions ..
  | insertParticipant => exact .insertParticipant ..
  | updateUsers => exact .side (.updateUsers ..)
  | insertUserSession => exact .side (.insertUserSession ..)
  | deleteUserSessions => exact .side (.deleteUserSessions ..)
  | insertStationUrl => exact .side (.insertStationUrl ..)
  | deleteStationUrls => exact .side (.deleteStationUrls ..)

/-- Every part of an operation executes statements. -/
theorem parts_executes : Parts (Executes Statement) where
  plain hf := moves_statement (statement_of_plain hf)
  deleteParticipants p := moves_statement (.deleteParticipants p)
  deleteUser userId := moves_statement (.deleteUser userId)
  leaveParty _ := Moves.bind (moves_party (.deleteParties _)) fun _ => moves_party (.deletePartyMembers _)
  disband := Moves.bind (moves_party (.deleteParties _)) fun _ => moves_party (.deletePartyMembers _)
  deleteInvites p := moves_party (.deleteInvites p)
  consume _ p := moves_party (.updateInvites p _ fun _ => ⟨rfl, rfl, rfl⟩)
  deliver _ _ := moves_party (.updateInvites (fun _ => _) _ fun _ => ⟨rfl, rfl, rfl⟩)
  follow := moves_queuePartyFollowInvite
  restore now creatorId typeId lobbySessionId receivers := Moves.bind (moves_ensurePartyForLeader creatorId) fun partyId =>
    Moves.foldlM (moves_queueLobbyRestore now creatorId typeId lobbySessionId partyId) receivers 0
  addInvite now senderId receiverId kind sessionType sessionId db :=
    executes_addInvite db now senderId receiverId kind sessionType sessionId

end Executions

open Executions in
/-- A step of the store is a sequence of accepted statements. -/
theorem executes_step (argon2 : Argon2) (db : Database) (call : Call) : Executes Statement db (step argon2 db call).1 :=
  parts_executes.step db argon2 call (fun _ _ _ _ => moves_statement (.side (.insertUser _ _ _)))
    (fun userId typeId sessionId _ => moves_joinInvitingParty call.now userId typeId sessionId)
    (fun _ _ _ => moves_party (.updateInvites (fun _ => _) _ fun _ => ⟨rfl, rfl, rfl⟩))

end Scbl.Storage
