import Scbl.Theorems.Host

/-!
# Joining an active session

When a join of an active session by an existing user succeeds. It fails when the attributes of the session are `NULL`, and when the
user has accepted an invitation to a lobby whose party is gone: the invitation keeps the id of the party without a foreign key, and
the join inserts that id into `party_members`, which has one.
-/

namespace Scbl.Storage

open Scbl.Lib

namespace Join

section

variable {ρ : Type} {db : Database}

/-- The invitation a join consumes is found in the invitations alone. -/
theorem acceptedLobbyInvite_congr {t t' : Tables} (h : t'.invites = t.invites) (now : Time) (userId typeId sessionId : Nat) :
    t'.acceptedLobbyInvite now userId typeId sessionId = t.acceptedLobbyInvite now userId typeId sessionId := by
  unfold Tables.acceptedLobbyInvite
  rw [h]

/-- The party of a leader belongs to an existing user. -/
theorem hasUser_of_partyOfLeader {leaderId partyId : Nat} (h : db.partyOfLeader leaderId = some partyId) :
    db.HasUser leaderId := by
  obtain ⟨party, hparty, -⟩ := Option.map_eq_some_iff.mp h
  have hleader : party.leaderId = leaderId := by simpa using List.find?_some hparty
  rw [← hleader]
  exact db.references.leader party (List.mem_of_find?_eq_some hparty)

/-- Inviting the members of the leader's party always succeeds: the foreign keys of the parties are those of the invitations. -/
theorem wp_queuePartyFollowInvites (now : Time) (leaderId sessionType sessionId : Nat) :
    wp (queuePartyFollowInvites now leaderId sessionType sessionId : StorageTx ρ Unit)
      (fun _ db' => db'.participants = db.participants) (fun _ => False) db := by
  unfold queuePartyFollowInvites
  rw [wp_bind, wp_query]
  cases hparty : db.partyOfLeader leaderId with
  | none => exact rfl
  | some partyId =>
    have hleader := hasUser_of_partyOfLeader hparty
    simp only [wp_bind, wp_query]
    split
    · rw [wp_bind, wp_query]
      refine wp_mono (wp_forM (fun rest (db' : Database) => (∀ c ∈ rest, db.HasUser c) ∧ db'.users = db.users ∧
        db'.participants = db.participants) ?_ ⟨?_, rfl, rfl⟩) (fun _ _ h => h.2.2)
      · rintro receiverId rest db' ⟨hrest, husers, hparticipants⟩
        have huser : ∀ u, db.HasUser u → db'.HasUser u := by
          intro u hu
          unfold Tables.HasUser
          rw [husers]
          exact hu
        unfold queuePartyFollowInvite
        rw [wp_bind]
        refine wp_statement_ok ((Tables.shrinks_deleteInvites _ _).integrity db'.integrity) fun db₁ h₁ => ?_
        have hkept : (∀ c ∈ rest, db.HasUser c) ∧ db₁.users = db.users ∧ db₁.participants = db.participants := by
          rw [h₁]
          exact ⟨fun c hc => hrest c (List.mem_cons_of_mem _ hc), husers, hparticipants⟩
        rw [wp_bind, wp_query]
        split
        · exact hkept
        · have huser₁ : ∀ u, db.HasUser u → db₁.HasUser u := by
            intro u hu
            rw [h₁]
            exact huser u hu
          refine wp_statement_ok (db₁.integrity.insertInvite (huser₁ _ hleader) (huser₁ _ (hrest _ List.mem_cons_self)) ..)
            fun db₂ h₂ => ?_
          rw [h₂]
          exact hkept
      · intro c hc
        obtain ⟨m, hm, rfl⟩ := List.mem_map.mp (mem_orderIds.mp hc)
        exact db.references.member m (List.mem_filter.mp hm).1
    · exact rfl

/-- Moving to the party of the accepted invitation succeeds when there is none or its party exists. -/
theorem wp_joinInvitingParty (now : Time) {userId typeId sessionId : Nat} (hu : db.HasUser userId)
    (hp : ∀ invite ∈ db.acceptedLobbyInvite now userId typeId sessionId, db.HasParty invite.1) :
    wp (joinInvitingParty now userId typeId sessionId : StorageTx ρ Unit)
      (fun _ db' => db'.participants = db.participants) (fun _ => False) db := by
  unfold joinInvitingParty
  rw [wp_bind, wp_query]
  cases hinvite : db.acceptedLobbyInvite now userId typeId sessionId with
  | none => exact rfl
  | some invite =>
    obtain ⟨partyId, leaderId⟩ := invite
    simp only [wp_bind]
    refine wp_statement_ok ((Tables.shrinks_deleteParties _ _).integrity db.integrity) fun db₁ h₁ => ?_
    have hparty : db₁.HasParty partyId := by
      rw [h₁]
      obtain ⟨party, hparty, rfl⟩ := List.mem_map.mp (hp _ hinvite)
      exact List.mem_map.mpr ⟨party, List.mem_filter.mpr ⟨hparty, by simp⟩, rfl⟩
    have huser : db₁.HasUser userId := by rw [h₁]; exact hu
    refine wp_statement_ok (db₁.integrity.upsertPartyMember huser hparty) fun db₂ h₂ => ?_
    rw [h₂]
    exact congrArg (·.participants) h₁

/-- A party member of a party that does not exist is refused. -/
theorem not_references_upsertPartyMember {t : Tables} (userId : Nat) {partyId : Nat} (hp : ¬ t.HasParty partyId) :
    ¬ (t.upsertPartyMember userId partyId).References := by
  intro h
  refine hp (h.memberParty { userId, partyId } ?_)
  unfold Tables.upsertPartyMember
  split
  · rename_i hin
    obtain ⟨m, hm, rfl⟩ := List.mem_map.mp hin
    exact List.mem_map.mpr ⟨m, hm, by rw [if_pos rfl]⟩
  · exact List.mem_append_right _ List.mem_cons_self

/-- Moving to the party of the accepted invitation fails when that party does not exist. -/
theorem wp_joinInvitingParty_missing (now : Time) {userId typeId sessionId partyId leaderId : Nat}
    (hinvite : db.acceptedLobbyInvite now userId typeId sessionId = some (partyId, leaderId)) (hp : ¬ db.HasParty partyId) :
    wp (joinInvitingParty now userId typeId sessionId : StorageTx ρ Unit) (fun _ _ => False) (fun e => ∃ e', e = .failed e')
      db := by
  unfold joinInvitingParty
  rw [wp_bind, wp_query, hinvite]
  simp only [wp_bind]
  refine wp_statement_ok ((Tables.shrinks_deleteParties _ _).integrity db.integrity) fun db₁ h₁ => ?_
  have hp₁ : ¬ db₁.HasParty partyId := by
    rw [h₁]
    intro h
    obtain ⟨party, hparty, rfl⟩ := List.mem_map.mp h
    exact hp (List.mem_map_of_mem (List.mem_filter.mp hparty).1)
  refine wp_execute (fun db₂ h₂ => ?_) (fun e _ => ⟨e, rfl⟩)
  refine not_references_upsertPartyMember userId hp₁ ?_
  have href := db₂.references
  rwa [Tables.toTables_of_check h₂] at href

end

/-! ### The join of an active session -/

section

variable {db : Database} {session : GameSessionRow} {userId : Nat} (now : Time) (hsession : session ∈ db.gameSessions)
  (ha : session.destroyedAt = none)

include hsession ha

/-- The join of a session without attributes fails. -/
theorem join_null_fails (userId : Nat) (hattr : session.attributes = none) :
    ∃ e, (joinGameSessionUnbounded now userId session.typeId session.id db).2 = .error e := by
  refine transaction_of_wp (P := fun r : Database × Except StorageError Bool => ∃ e, r.2 = .error e) ?_
  rw [wp_bind, wp_query, db.activeSession_self hsession ha]
  simp only [wp_bind]
  rw [hattr]
  exact ⟨_, rfl⟩

/-- A join fails that would move the user to a party that does not exist. -/
theorem join_missing_fails (hu : db.HasUser userId) {attributes : Text} (hattr : session.attributes = some attributes)
    {invite : Nat × Nat} (hinvite : db.acceptedLobbyInvite now userId session.typeId session.id = some invite)
    (hp : ¬ db.HasParty invite.1) :
    ∃ e, (joinGameSessionUnbounded now userId session.typeId session.id db).2 = .error e := by
  refine transaction_of_wp (P := fun r : Database × Except StorageError Bool => ∃ e, r.2 = .error e) ?_
  rw [wp_bind, wp_query, db.activeSession_self hsession ha]
  simp only [wp_bind]
  rw [hattr, decodeText, wp_pure, wp_bind]
  refine wp_statement_ok (db.integrity.insertParticipant (List.mem_map_of_mem hsession) hu) fun db₁ h₁ => ?_
  have hinvite₁ : db₁.acceptedLobbyInvite now userId session.typeId session.id = some invite := by
    rw [h₁, acceptedLobbyInvite_congr (Tables.invites_insertParticipant _ _ _), hinvite]
  have hp₁ : ¬ db₁.HasParty invite.1 := by
    unfold Tables.HasParty
    rw [h₁, Tables.parties_insertParticipant]
    exact hp
  rw [wp_bind]
  refine wp_weaken (wp_joinInvitingParty_missing now hinvite₁ hp₁) (fun _ _ h => h.elim) ?_
  rintro - ⟨e, rfl⟩
  exact ⟨e, rfl⟩

/-- A join succeeds when the party exists to which it moves the user, if to any. -/
theorem join_succeeds (hu : db.HasUser userId) {attributes : Text} (hattr : session.attributes = some attributes)
    (hparty : ∀ invite ∈ db.acceptedLobbyInvite now userId session.typeId session.id, db.HasParty invite.1) :
    (joinGameSessionUnbounded now userId session.typeId session.id db).2 = .ok true ∧
      { gameId := session.id, userId } ∈ (joinGameSessionUnbounded now userId session.typeId session.id db).1.participants := by
  refine transaction_of_wp (P := fun r : Database × Except StorageError Bool =>
    r.2 = .ok true ∧ { gameId := session.id, userId } ∈ r.1.participants) ?_
  rw [wp_bind, wp_query, db.activeSession_self hsession ha]
  simp only [wp_bind]
  rw [hattr, decodeText, wp_pure, wp_bind]
  refine wp_statement_ok (db.integrity.insertParticipant (List.mem_map_of_mem hsession) hu) fun db₁ h₁ => ?_
  have hin : { gameId := session.id, userId } ∈ db₁.participants := by
    rw [h₁]
    exact Tables.mem_insertParticipant _ _ _
  have hu₁ : db₁.HasUser userId := by
    unfold Tables.HasUser
    rw [h₁, Tables.users_insertParticipant]
    exact hu
  have hparty₁ : ∀ invite ∈ db₁.acceptedLobbyInvite now userId session.typeId session.id, db₁.HasParty invite.1 := by
    intro invite hinvite
    rw [h₁, acceptedLobbyInvite_congr (Tables.invites_insertParticipant _ _ _)] at hinvite
    unfold Tables.HasParty
    rw [h₁, Tables.parties_insertParticipant]
    exact hparty invite hinvite
  rw [wp_bind]
  refine wp_weaken (wp_joinInvitingParty now hu₁ hparty₁) (fun _ db₂ h₂ => ?_) (fun _ he => he.elim)
  rw [wp_bind]
  refine wp_statement_ok (db₂.integrity.updateInvites _ (fun _ => rfl) (fun _ => rfl) (fun _ => rfl)) fun db₃ h₃ => ?_
  have hin₃ : { gameId := session.id, userId } ∈ db₃.participants := by
    rw [h₃]
    exact h₂ ▸ hin
  rw [wp_bind]
  split
  · refine wp_weaken (wp_queuePartyFollowInvites now userId session.typeId session.id) (fun _ db₄ h₄ => ?_)
      (fun _ he => he.elim)
    exact ⟨rfl, h₄ ▸ hin₃⟩
  · exact ⟨rfl, hin₃⟩

end

end Join

open Join

namespace Join

/-- A lobby of the user 1000, which the user 1001 is invited to and accepts. -/
def invitingCalls : List Call :=
  [⟨1000, .createGameSession 1000 1 "113 => 1".toList⟩, ⟨1001, .addInvite 1000 1001 2 1 2⟩, ⟨1002, .acceptInvite 1001 1⟩]

/-- The host then creates a second lobby and leaves it, which deletes the party of the invitation. -/
def leavingCalls : List Call :=
  invitingCalls ++ [⟨1003, .createGameSession 1000 1 "113 => 1".toList⟩, ⟨1004, .leaveGameSession 1000 1 3⟩]

end Join

end Scbl.Storage
