import Scbl.Storage.Operations

/-!
# Statements and the constraints

A statement that only deletes rows keeps every constraint, as long as no party member loses its party (`Shrinks`). An insertion
keeps the constraints when the rows it refers to exist, and an update when it leaves keys and references alone.
-/

namespace Scbl.Storage

open Scbl.Lib

/-- The constraints of the schema. -/
structure Tables.Integrity (t : Tables) : Prop where
  keys : t.Keys
  references : t.References

/-- The tables of a database meet the constraints. -/
theorem Database.integrity (db : Database) : db.toTables.Integrity := ⟨db.keys, db.references⟩

namespace Tables

/-! ## Deleting rows -/

/-- Rows were deleted, none of them a user or a session, and no party member lost its party. Nothing was inserted. -/
structure Shrinks (t t' : Tables) : Prop where
  users : t'.users = t.users
  gameSessions : t'.gameSessions = t.gameSessions
  participants : t'.participants.Sublist t.participants
  stationUrls : t'.stationUrls.Sublist t.stationUrls
  userSessions : t'.userSessions.Sublist t.userSessions
  invites : t'.invites.Sublist t.invites
  parties : t'.parties.Sublist t.parties
  partyMembers : t'.partyMembers.Sublist t.partyMembers
  memberParty : ∀ m ∈ t'.partyMembers, t.HasParty m.partyId → t'.HasParty m.partyId
  inviteLog : t'.inviteLog = t.inviteLog

theorem Shrinks.refl (t : Tables) : t.Shrinks t :=
  ⟨rfl, rfl, .refl _, .refl _, .refl _, .refl _, .refl _, .refl _, fun _ _ h => h, rfl⟩

theorem Shrinks.trans {t t' t'' : Tables} (h : t.Shrinks t') (h' : t'.Shrinks t'') : t.Shrinks t'' where
  users := h'.users.trans h.users
  gameSessions := h'.gameSessions.trans h.gameSessions
  participants := h'.participants.trans h.participants
  stationUrls := h'.stationUrls.trans h.stationUrls
  userSessions := h'.userSessions.trans h.userSessions
  invites := h'.invites.trans h.invites
  parties := h'.parties.trans h.parties
  partyMembers := h'.partyMembers.trans h.partyMembers
  memberParty := fun m hm hp => h'.memberParty m hm (h.memberParty m (h'.partyMembers.subset hm) hp)
  inviteLog := h'.inviteLog.trans h.inviteLog

/-- The constraints survive. -/
theorem Shrinks.integrity {t t' : Tables} (h : t.Shrinks t') (hi : t.Integrity) : t'.Integrity := by
  have huser : ∀ u, t.HasUser u → t'.HasUser u := by
    intro u hu
    unfold HasUser at hu ⊢
    rwa [h.users]
  constructor
  · exact {
      users := by rw [h.users]; exact hi.keys.users
      usernames := by rw [h.users]; exact hi.keys.usernames
      ubiIds := by rw [h.users]; exact hi.keys.ubiIds
      gameSessions := by rw [h.gameSessions]; exact hi.keys.gameSessions
      participants := hi.keys.participants.sublist h.participants
      stationUrls := hi.keys.stationUrls.sublist h.stationUrls
      userSessions := hi.keys.userSessions.sublist (h.userSessions.map _)
      invites := hi.keys.invites.sublist (h.invites.map _)
      parties := hi.keys.parties.sublist (h.parties.map _)
      leaders := hi.keys.leaders.sublist (h.parties.map _)
      partyMembers := hi.keys.partyMembers.sublist (h.partyMembers.map _) }
  · exact {
      creator := fun g hg => huser _ (hi.references.creator g (h.gameSessions ▸ hg))
      participantGame := fun p hp => h.gameSessions ▸ hi.references.participantGame p (h.participants.subset hp)
      participantUser := fun p hp => huser _ (hi.references.participantUser p (h.participants.subset hp))
      stationUrl := fun u hu => huser _ (hi.references.stationUrl u (h.stationUrls.subset hu))
      userSession := fun u hu => huser _ (hi.references.userSession u (h.userSessions.subset hu))
      sender := fun i hm => huser _ (hi.references.sender i (h.invites.subset hm))
      receiver := fun i hm => huser _ (hi.references.receiver i (h.invites.subset hm))
      leader := fun p hp => huser _ (hi.references.leader p (h.parties.subset hp))
      member := fun m hm => huser _ (hi.references.member m (h.partyMembers.subset hm))
      memberParty := fun m hm => h.memberParty m hm (hi.references.memberParty m (h.partyMembers.subset hm)) }

/-- The cascade deletes the members of a deleted party. -/
theorem shrinks_deleteParties (t : Tables) (p : PartyRow → Bool) : t.Shrinks (t.deleteParties p) := by
  refine ⟨rfl, rfl, .refl _, .refl _, .refl _, .refl _, List.filter_sublist, List.filter_sublist, ?_, rfl⟩
  intro m hm hp
  obtain ⟨party, hparty, hid⟩ := List.mem_map.mp hp
  have hkept := (List.mem_filter.mp hm).2
  refine List.mem_map.mpr ⟨party, List.mem_filter.mpr ⟨hparty, ?_⟩, hid⟩
  cases hdel : p party with
  | false => rfl
  | true =>
    have : t.parties.any (fun party => p party && party.id == m.partyId) = true :=
      List.any_eq_true.mpr ⟨party, hparty, by simp [hdel, hid]⟩
    simp [this] at hkept

theorem shrinks_deletePartyMembers (t : Tables) (p : PartyMemberRow → Bool) : t.Shrinks (t.deletePartyMembers p) :=
  ⟨rfl, rfl, .refl _, .refl _, .refl _, .refl _, .refl _, List.filter_sublist, fun _ _ h => h, rfl⟩

theorem shrinks_deleteInvites (t : Tables) (p : InviteRow → Bool) : t.Shrinks (t.deleteInvites p) :=
  ⟨rfl, rfl, .refl _, .refl _, .refl _, List.filter_sublist, .refl _, .refl _, fun _ _ h => h, rfl⟩

/-- What the trigger does to the tables after the participant is gone. -/
theorem partyMemberLeaveLobby_cases (t : Tables) (old : ParticipantRow) :
    t.partyMemberLeaveLobby old = t ∨ t.partyMemberLeaveLobby old =
      (t.deleteParties (·.leaderId = old.userId)).deletePartyMembers (·.userId = old.userId) := by
  unfold partyMemberLeaveLobby
  split
  · exact .inr rfl
  · exact .inl rfl

theorem shrinks_partyMemberLeaveLobby (t : Tables) (old : ParticipantRow) : t.Shrinks (t.partyMemberLeaveLobby old) := by
  rcases t.partyMemberLeaveLobby_cases old with h | h
  · rw [h]; exact .refl t
  · rw [h]; exact (t.shrinks_deleteParties _).trans (shrinks_deletePartyMembers _ _)

/-- The trigger deletes no participant. -/
theorem participants_partyMemberLeaveLobby (t : Tables) (old : ParticipantRow) :
    (t.partyMemberLeaveLobby old).participants = t.participants := by
  rcases t.partyMemberLeaveLobby_cases old with h | h
  · rw [h]
  · rw [h]; rfl

/-- Deleting a participant deletes that row. -/
theorem participants_deleteParticipant (t : Tables) (old : ParticipantRow) :
    (t.deleteParticipant old).participants = t.participants.filter (· ≠ old) :=
  participants_partyMemberLeaveLobby _ _

theorem shrinks_deleteParticipant (t : Tables) (old : ParticipantRow) : t.Shrinks (t.deleteParticipant old) := by
  have hrow : t.Shrinks { t with participants := t.participants.filter (· ≠ old) } :=
    ⟨rfl, rfl, List.filter_sublist, .refl _, .refl _, .refl _, .refl _, .refl _, fun _ _ h => h, rfl⟩
  exact hrow.trans (shrinks_partyMemberLeaveLobby _ _)

/-- Deleting participants one after the other. -/
theorem foldl_deleteParticipant (rows : List ParticipantRow) (t : Tables) :
    t.Shrinks (rows.foldl deleteParticipant t) ∧
      (rows.foldl deleteParticipant t).participants = t.participants.filter (· ∉ rows) := by
  induction rows generalizing t with
  | nil => exact ⟨.refl t, by simp⟩
  | cons row rows ih =>
    obtain ⟨hs, hp⟩ := ih (t.deleteParticipant row)
    refine ⟨(t.shrinks_deleteParticipant row).trans hs, ?_⟩
    rw [List.foldl_cons, hp, participants_deleteParticipant, List.filter_filter]
    refine List.filter_congr fun p _ => ?_
    simp [Bool.and_comm]

theorem shrinks_deleteParticipants (t : Tables) (p : ParticipantRow → Bool) : t.Shrinks (t.deleteParticipants p) :=
  (foldl_deleteParticipant _ t).1

/-- The participants that are left. -/
theorem participants_deleteParticipants (t : Tables) (p : ParticipantRow → Bool) :
    (t.deleteParticipants p).participants = t.participants.filter (fun r => !p r) := by
  unfold deleteParticipants
  rw [(foldl_deleteParticipant _ t).2]
  refine List.filter_congr fun r hr => ?_
  simp [List.mem_filter, hr]

/-- No session is deleted. -/
theorem gameSessions_deleteParticipants (t : Tables) (p : ParticipantRow → Bool) :
    (t.deleteParticipants p).gameSessions = t.gameSessions :=
  (t.shrinks_deleteParticipants p).gameSessions

/-- What is read from neither participants nor parties stays when participants are deleted. -/
theorem rows_deleteParticipants {α : Type} {f : Tables → α}
    (hf : ∀ (t : Tables) (participants : List ParticipantRow) (parties : List PartyRow) (partyMembers : List PartyMemberRow),
      f { t with participants, parties, partyMembers } = f t)
    (t : Tables) (p : ParticipantRow → Bool) : f (t.deleteParticipants p) = f t := by
  unfold deleteParticipants
  generalize t.participants.filter p = deleted
  induction deleted generalizing t with
  | nil => rfl
  | cons row deleted ih =>
    rw [List.foldl_cons, ih, deleteParticipant]
    rcases partyMemberLeaveLobby_cases { t with participants := t.participants.filter (· ≠ row) } row with h | h
    · rw [h]
      exact hf t _ t.parties t.partyMembers
    · rw [h]
      exact hf t _ _ _

/-! ## Insertions and updates -/

/-- A participant of an existing session and an existing user. -/
theorem Integrity.insertParticipant {t : Tables} (h : t.Integrity) {gameId userId : Nat}
    (hg : gameId ∈ t.gameSessions.map (·.id)) (hu : t.HasUser userId) : (t.insertParticipant gameId userId).Integrity := by
  unfold Tables.insertParticipant
  split
  · exact h
  · rename_i hnew
    constructor
    · exact { h.keys with participants := List.nodup_append_comm.mp (List.nodup_cons.mpr ⟨hnew, h.keys.participants⟩) }
    · refine { h.references with participantGame := ?_, participantUser := ?_ }
      · intro p hp
        rcases List.mem_append.mp hp with hp | hp
        · exact h.references.participantGame p hp
        · rw [List.mem_singleton.mp hp]; exact hg
      · intro p hp
        rcases List.mem_append.mp hp with hp | hp
        · exact h.references.participantUser p hp
        · rw [List.mem_singleton.mp hp]; exact hu

/-- A member of an existing party, who is an existing user. -/
theorem Integrity.upsertPartyMember {t : Tables} (h : t.Integrity) {userId partyId : Nat} (hu : t.HasUser userId)
    (hp : t.HasParty partyId) : (t.upsertPartyMember userId partyId).Integrity := by
  unfold Tables.upsertPartyMember
  split
  · constructor
    · refine { h.keys with partyMembers := ?_ }
      have hids : (t.partyMembers.map (fun m => if m.userId = userId then { m with partyId } else m)).map (·.userId) =
          t.partyMembers.map (·.userId) := by
        rw [List.map_map]
        refine List.map_congr_left fun m _ => ?_
        simp only [Function.comp_apply]
        split <;> rfl
      rw [hids]
      exact h.keys.partyMembers
    · refine { h.references with member := ?_, memberParty := ?_ }
      · intro m' hm'
        obtain ⟨m, hm, rfl⟩ := List.mem_map.mp hm'
        split
        · exact h.references.member m hm
        · exact h.references.member m hm
      · intro m' hm'
        obtain ⟨m, hm, rfl⟩ := List.mem_map.mp hm'
        split
        · exact hp
        · exact h.references.memberParty m hm
  · rename_i hnew
    constructor
    · refine { h.keys with partyMembers := ?_ }
      rw [List.map_append]
      exact List.nodup_append_comm.mp (List.nodup_cons.mpr ⟨hnew, h.keys.partyMembers⟩)
    · refine { h.references with member := ?_, memberParty := ?_ }
      · intro m hm
        rcases List.mem_append.mp hm with hm | hm
        · exact h.references.member m hm
        · rw [List.mem_singleton.mp hm]; exact hu
      · intro m hm
        rcases List.mem_append.mp hm with hm | hm
        · exact h.references.memberParty m hm
        · rw [List.mem_singleton.mp hm]; exact hp

/-- An invitation between existing users. -/
theorem Integrity.insertInvite {t : Tables} (h : t.Integrity) {sender receiver : Nat} (hs : t.HasUser sender)
    (hr : t.HasUser receiver) (now : Time) (kind sessionType sessionId : Nat) (partyId : Option Nat) (expiresAt : Time) :
    (t.insertInvite now sender receiver kind sessionType sessionId partyId expiresAt).Integrity := by
  unfold Tables.insertInvite
  constructor
  · refine { h.keys with invites := ?_ }
    rw [List.map_append]
    exact List.nodup_append_comm.mp (List.nodup_cons.mpr ⟨maxId_succ_notMem _, h.keys.invites⟩)
  · refine { h.references with sender := ?_, receiver := ?_ }
    · intro i hm
      rcases List.mem_append.mp hm with hm | hm
      · exact h.references.sender i hm
      · rw [List.mem_singleton.mp hm]; exact hs
    · intro i hm
      rcases List.mem_append.mp hm with hm | hm
      · exact h.references.receiver i hm
      · rw [List.mem_singleton.mp hm]; exact hr

/-- An update of invitations that changes neither their row id nor the users they name. -/
theorem Integrity.updateInvites {t : Tables} (h : t.Integrity) (p : InviteRow → Bool) {f : InviteRow → InviteRow}
    (hid : ∀ i, (f i).rowid = i.rowid) (hs : ∀ i, (f i).sender = i.sender) (hr : ∀ i, (f i).receiver = i.receiver) :
    (t.updateInvites p f).Integrity := by
  unfold Tables.updateInvites
  constructor
  · refine { h.keys with invites := ?_ }
    have hids : (t.invites.map (fun i => if p i then f i else i)).map (·.rowid) = t.invites.map (·.rowid) := by
      rw [List.map_map]
      refine List.map_congr_left fun i _ => ?_
      simp only [Function.comp_apply]
      split
      · exact hid i
      · rfl
    rw [hids]
    exact h.keys.invites
  · refine { h.references with sender := ?_, receiver := ?_ }
    · intro i' hm'
      obtain ⟨i, hm, rfl⟩ := List.mem_map.mp hm'
      split
      · rw [hs]; exact h.references.sender i hm
      · exact h.references.sender i hm
    · intro i' hm'
      obtain ⟨i, hm, rfl⟩ := List.mem_map.mp hm'
      split
      · rw [hr]; exact h.references.receiver i hm
      · exact h.references.receiver i hm

/-- An update of sessions that changes no id, to creators that exist. -/
theorem Integrity.updateGameSessions {t : Tables} (h : t.Integrity) (p : GameSessionRow → Bool) {f : GameSessionRow → GameSessionRow}
    (hid : ∀ g, (f g).id = g.id) (hcreator : ∀ g ∈ t.gameSessions, p g = true → t.HasUser (f g).creatorId) :
    (t.updateGameSessions p f).Integrity := by
  have hids : (t.updateGameSessions p f).gameSessions.map (·.id) = t.gameSessions.map (·.id) := by
    simp only [Tables.updateGameSessions, List.map_map]
    refine List.map_congr_left fun g _ => ?_
    simp only [Function.comp_apply]
    split
    · exact hid g
    · rfl
  constructor
  · refine { h.keys with gameSessions := ?_ }
    rw [hids]
    exact h.keys.gameSessions
  · refine { h.references with creator := ?_, participantGame := ?_ }
    · intro g' hg'
      obtain ⟨g, hg, rfl⟩ := List.mem_map.mp hg'
      split
      · rename_i hp
        exact hcreator g hg hp
      · exact h.references.creator g hg
    · rw [hids]
      exact h.references.participantGame

end Tables

/-- The first item of a sorted list is an item of the list that comes before all others. -/
theorem head_insertionSort {α : Type} (r : α → α → Prop) [DecidableRel r] [Std.Total r] [IsTrans α r] {l : List α} {a : α}
    (h : (l.insertionSort r).head? = some a) : a ∈ l ∧ ∀ b ∈ l, r a b := by
  obtain ⟨rest, hl⟩ : ∃ rest, l.insertionSort r = a :: rest := by
    cases hsorted : l.insertionSort r with
    | nil => rw [hsorted] at h; nomatch h
    | cons b rest => rw [hsorted] at h; exact ⟨rest, by rw [Option.some.inj h]⟩
  have hsorted := List.pairwise_insertionSort r l
  rw [hl] at hsorted
  refine ⟨(List.mem_insertionSort r).mp (hl ▸ List.mem_cons_self), fun b hb => ?_⟩
  rcases List.mem_cons.mp (hl ▸ (List.mem_insertionSort r).mpr hb) with rfl | hb
  · exact (Std.Total.total b b).elim id id
  · exact List.rel_of_pairwise_cons hsorted hb

/-- The newest of some invitations is one of them. -/
theorem mem_of_newest {rows : List InviteRow} {row : InviteRow} (h : newest rows = some row) : row ∈ rows :=
  (List.mem_insertionSort _).mp (List.mem_of_mem_head? h)

/-! ## Statements in a transaction -/

section Wp

variable {ρ α : Type} {E : Abort StorageError ρ → Prop} {db : Database}

@[simp] theorem wp_query (f : Tables → α) {Q : α → Database → Prop} :
    wp (query f : StorageTx ρ α) Q E db ↔ Q (f db.toTables) db := Iff.rfl

/-- A statement whose outcome meets the constraints succeeds. -/
theorem wp_statement_ok {f : Tables → Tables} {Q : Unit → Database → Prop} (hi : (f db.toTables).Integrity)
    (hq : ∀ db' : Database, db'.toTables = f db.toTables → Q () db') : wp (statement f : StorageTx ρ Unit) Q E db :=
  wp_execute_ok (Tables.check_ok hi.keys hi.references) (hq _ rfl)

/-- A statement leaves the tables it computes, unless the engine refuses them and the operation fails. -/
theorem wp_statement_failing {f : Tables → Tables} {Q : Unit → Database → Prop} (he : ∀ e, E (.failed e))
    (hq : ∀ db' : Database, db'.toTables = f db.toTables → Q () db') : wp (statement f : StorageTx ρ Unit) Q E db :=
  wp_execute (fun _ h => hq _ (Tables.toTables_of_check h)) fun e _ => he e

/-- A statement leaves the tables it computes, unless the engine refuses them. -/
theorem wp_statement {f : Tables → Tables} {Q : Unit → Database → Prop}
    (hq : ∀ db' : Database, db'.toTables = f db.toTables → Q () db') :
    wp (statement f : StorageTx ρ Unit) Q (fun _ => True) db :=
  wp_statement_failing (fun _ => trivial) hq

end Wp

end Scbl.Storage
