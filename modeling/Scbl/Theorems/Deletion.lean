import Scbl.Lemmas.Isolation
import Scbl.Theorems.Host

/-!
# Deleting a user

What `delete_user_async` leaves, and when the engine lets it. Every table that refers to users deletes its rows with the user, but for
`invites`, whose sender and receiver are foreign keys without `ON DELETE`: one invitation from or to the user, however old, and the
deletion is refused.
-/

namespace Scbl.Storage

open Scbl.Lib

namespace Tables

/-- No row of any table refers to a user. -/
structure Unmentioned (t : Tables) (userId : Nat) : Prop where
  user : ∀ u ∈ t.users, u.id ≠ userId
  creator : ∀ g ∈ t.gameSessions, g.creatorId ≠ userId
  participant : ∀ p ∈ t.participants, p.userId ≠ userId
  stationUrl : ∀ r ∈ t.stationUrls, r.userId ≠ userId
  userSession : ∀ r ∈ t.userSessions, r.userId ≠ userId
  invite : ∀ i ∈ t.invites, i.sender ≠ userId ∧ i.receiver ≠ userId
  leader : ∀ party ∈ t.parties, party.leaderId ≠ userId
  member : ∀ m ∈ t.partyMembers, m.userId ≠ userId

/-- No invitation is from a user or to it. -/
def Uninvited (t : Tables) (userId : Nat) : Prop := ∀ i ∈ t.invites, i.sender ≠ userId ∧ i.receiver ≠ userId

end Tables

namespace Deletion

variable {t : Tables} {userId : Nat}

/-- The participants that are left when a user is deleted with its sessions. -/
theorem mem_participants_deleteUser {p : ParticipantRow} :
    p ∈ (t.deleteUser userId).participants ↔
      p ∈ t.participants ∧ p.userId ≠ userId ∧ ∀ g ∈ t.gameSessions, g.creatorId = userId → g.id ≠ p.gameId := by
  simp only [Tables.deleteUser, List.mem_filter, Bool.and_eq_true, decide_eq_true_eq, Bool.not_eq_true', List.any_eq_false,
    beq_iff_eq, not_and, ne_eq]

/-- The members of parties that are left when a user is deleted with its party. -/
theorem mem_partyMembers_deleteUser {m : PartyMemberRow} :
    m ∈ (t.deleteUser userId).partyMembers ↔
      m ∈ t.partyMembers ∧ m.userId ≠ userId ∧ ∀ party ∈ t.parties, party.leaderId = userId → party.id ≠ m.partyId := by
  simp only [Tables.deleteUser, List.mem_filter, Bool.and_eq_true, decide_eq_true_eq, Bool.not_eq_true', List.any_eq_false,
    beq_iff_eq, not_and, ne_eq]

/-- The rows that are left by a deletion are not the user's. -/
theorem mem_filter_ne {α : Type} {rows : List α} {owner : α → Nat} {r : α} :
    r ∈ rows.filter (fun r => decide (owner r ≠ userId)) ↔ r ∈ rows ∧ owner r ≠ userId := by
  rw [List.mem_filter, decide_eq_true_eq]

/-- Every other user is left. -/
theorem hasUser_deleteUser {v : Nat} (h : t.HasUser v) (hne : v ≠ userId) : (t.deleteUser userId).HasUser v := by
  obtain ⟨u, hu, rfl⟩ := List.mem_map.mp h
  exact List.mem_map_of_mem (mem_filter_ne.mpr ⟨hu, hne⟩)

/-- Deleted rows break no primary key and no `UNIQUE`. -/
theorem keys_deleteUser (h : t.Keys) (userId : Nat) : (t.deleteUser userId).Keys where
  users := h.users.sublist (List.filter_sublist.map _)
  usernames := h.usernames.sublist (List.filter_sublist.map _)
  ubiIds := h.ubiIds.sublist (List.filter_sublist.filterMap _)
  gameSessions := h.gameSessions.sublist (List.filter_sublist.map _)
  participants := h.participants.sublist List.filter_sublist
  stationUrls := h.stationUrls.sublist List.filter_sublist
  userSessions := h.userSessions.sublist (List.filter_sublist.map _)
  invites := h.invites
  parties := h.parties.sublist (List.filter_sublist.map _)
  leaders := h.leaders.sublist (List.filter_sublist.map _)
  partyMembers := h.partyMembers.sublist (List.filter_sublist.map _)

/-- The cascades keep the foreign keys, but for those of the invitations. -/
theorem references_deleteUser (h : t.References) (huninvited : t.Uninvited userId) : (t.deleteUser userId).References where
  creator := by
    intro g hg
    obtain ⟨hg, hne⟩ := mem_filter_ne.mp hg
    exact hasUser_deleteUser (h.creator g hg) hne
  participantGame := by
    intro p hp
    obtain ⟨hp, -, hgame⟩ := mem_participants_deleteUser.mp hp
    obtain ⟨g, hg, hid⟩ := List.mem_map.mp (h.participantGame p hp)
    exact List.mem_map.mpr ⟨g, mem_filter_ne.mpr ⟨hg, fun hc => hgame g hg hc hid⟩, hid⟩
  participantUser := by
    intro p hp
    obtain ⟨hp, hne, -⟩ := mem_participants_deleteUser.mp hp
    exact hasUser_deleteUser (h.participantUser p hp) hne
  stationUrl := by
    intro r hr
    obtain ⟨hr, hne⟩ := mem_filter_ne.mp hr
    exact hasUser_deleteUser (h.stationUrl r hr) hne
  userSession := by
    intro r hr
    obtain ⟨hr, hne⟩ := mem_filter_ne.mp hr
    exact hasUser_deleteUser (h.userSession r hr) hne
  sender i hi := hasUser_deleteUser (h.sender i hi) (huninvited i hi).1
  receiver i hi := hasUser_deleteUser (h.receiver i hi) (huninvited i hi).2
  leader := by
    intro party hparty
    obtain ⟨hparty, hne⟩ := mem_filter_ne.mp hparty
    exact hasUser_deleteUser (h.leader party hparty) hne
  member := by
    intro m hm
    obtain ⟨hm, hne, -⟩ := mem_partyMembers_deleteUser.mp hm
    exact hasUser_deleteUser (h.member m hm) hne
  memberParty := by
    intro m hm
    obtain ⟨hm, -, hparties⟩ := mem_partyMembers_deleteUser.mp hm
    obtain ⟨party, hparty, hid⟩ := List.mem_map.mp (h.memberParty m hm)
    exact List.mem_map.mpr ⟨party, mem_filter_ne.mpr ⟨hparty, fun hl => hparties party hparty hl hid⟩, hid⟩

/-- A deletion that is accepted leaves nothing of the user. -/
theorem unmentioned_deleteUser (huninvited : t.Uninvited userId) : (t.deleteUser userId).Unmentioned userId where
  user _ hu := (mem_filter_ne.mp hu).2
  creator _ hg := (mem_filter_ne.mp hg).2
  participant _ hp := (mem_participants_deleteUser.mp hp).2.1
  stationUrl _ hr := (mem_filter_ne.mp hr).2
  userSession _ hr := (mem_filter_ne.mp hr).2
  invite := huninvited
  leader _ hparty := (mem_filter_ne.mp hparty).2
  member _ hm := (mem_partyMembers_deleteUser.mp hm).2.1

/-- Invitations are not deleted with a user, so the foreign keys of those that name it are broken. -/
theorem uninvited_of_references (h : (t.deleteUser userId).References) : t.Uninvited userId := by
  have hgone : ¬ (t.deleteUser userId).HasUser userId := by
    intro hu
    obtain ⟨u, hu, hid⟩ := List.mem_map.mp hu
    exact (mem_filter_ne.mp hu).2 hid
  exact fun i hi => ⟨fun hs => hgone (hs ▸ h.sender i hi), fun hr => hgone (hr ▸ h.receiver i hi)⟩

/-- The sessions of others are left, with their participants. -/
theorem isolates_deleteUser (db : Database) (userId : Nat) : db.Isolates userId (db.deleteUser userId) := by
  intro g hg ⟨hcreator, hparticipant⟩
  refine ⟨mem_filter_ne.mpr ⟨hg, hcreator⟩, fun v => ?_⟩
  rw [mem_participants_deleteUser]
  refine and_iff_left_of_imp fun hv => ⟨fun hself => hparticipant (hself ▸ hv), fun g' hg' hc hid => hcreator ?_⟩
  rw [← db.session_unique hg' hg hid]
  exact hc

/-- A deletion that no invitation stands against is accepted. -/
theorem deleteUser_uninvited {db : Database} (h : db.Uninvited userId) :
    (deleteUser userId db).2 = .ok () ∧ (deleteUser userId db).1.toTables = db.deleteUser userId := by
  refine transaction_of_wp (P := fun r : Database × Except StorageError Unit => r.2 = .ok () ∧ r.1.toTables = db.deleteUser userId) ?_
  exact wp_statement_ok ⟨keys_deleteUser db.keys userId, references_deleteUser db.references h⟩ fun _ h' => ⟨rfl, h'⟩

/-- A deletion that an invitation stands against is refused. -/
theorem deleteUser_invited {db : Database} (h : ¬ db.Uninvited userId) : ∃ e, (deleteUser userId db).2 = .error e := by
  refine transaction_of_wp (P := fun r : Database × Except StorageError Unit => ∃ e, r.2 = .error e) ?_
  refine wp_execute (fun db' h' => absurd ?_ h) fun e _ => ⟨e, rfl⟩
  have href := db'.references
  rw [Tables.toTables_of_check h'] at href
  exact uninvited_of_references href

end Deletion

open Deletion

/-- Deleting a user succeeds, leaves no row that refers to the user and leaves the sessions of others as they were exactly when no
invitation is from the user or to it. -/
theorem deleteUser_complete_iff (userId : Nat) (db : Database) :
    let after := deleteUser userId db
    (after.2 = .ok () ∧ after.1.Unmentioned userId ∧ db.Isolates userId after.1.toTables) ↔
      ∀ i ∈ db.invites, i.sender ≠ userId ∧ i.receiver ≠ userId := by
  intro after
  constructor
  · rintro ⟨hok, -, -⟩
    by_contra hinvited
    obtain ⟨e, he⟩ := deleteUser_invited hinvited
    exact absurd (hok.symm.trans he) nofun
  · intro huninvited
    obtain ⟨hok, htables⟩ := deleteUser_uninvited huninvited
    refine ⟨hok, ?_, ?_⟩
    · rw [htables]
      exact unmentioned_deleteUser huninvited
    · rw [htables]
      exact isolates_deleteUser db userId

namespace Deletion

/-- The user 1000 invites the user 1001 to its session. -/
def invitingCalls : List Call := [⟨1000, .addInvite 1000 1001 1 1 1⟩]

end Deletion

/-- After one invitation neither the user who sent it nor the one it is for can be deleted. -/
theorem deleteUser_complete_false :
    let db := run (step Host.noHash) migrated invitingCalls
    ∀ userId ∈ [1000, 1001], let after := deleteUser userId db
      ¬ (after.2 = .ok () ∧ after.1.Unmentioned userId ∧ db.Isolates userId after.1.toTables) := by
  intro db userId hmem after h
  have hrefused : [1000, 1001].all (fun userId => (deleteUser userId db).2 = .error .foreignKey) = true := by decide +kernel
  have herror := of_decide_eq_true (List.all_eq_true.mp hrefused userId hmem)
  exact absurd (h.1.symm.trans herror) nofun

end Scbl.Storage
