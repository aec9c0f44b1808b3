import Scbl.Lemmas.Cleanup
import Scbl.Theorems.Host

/-!
# Logging out

What `delete_user_session`, and the cleanup it shares with the closing of a secure session, leave of a user and of everybody else.
Nothing of the user is left. A session that the user hosted or attended is destroyed when nobody remains in it; otherwise it keeps its
creator as its host when the creator remains, and is handed over to the smallest remaining id when it does not. A creator that is not
the user need not remain, since a session may have lost it before.
-/

namespace Scbl.Storage

open Scbl.Lib

namespace Tables

/-- A user hosts or attends an active session. -/
def Attends (t : Tables) (userId : Nat) (g : GameSessionRow) : Prop :=
  g.destroyedAt = none ∧ (g.creatorId = userId ∨ { gameId := g.id, userId } ∈ t.participants)

instance (t : Tables) (userId : Nat) (g : GameSessionRow) : Decidable (t.Attends userId g) := inferInstanceAs (Decidable (_ ∧ _))

/-- What a logout leaves: nothing of the user, the sessions it attended reconciled, and everything else as it was. -/
structure LogsOut (now : Time) (userId : Nat) (t t' : Tables) : Prop where
  absent : t'.Absent userId
  destroyed : ∀ g ∈ t.gameSessions, t.Attends userId g → (∀ v, { gameId := g.id, userId := v } ∉ t'.participants) →
    { g with destroyedAt := some now } ∈ t'.gameSessions
  kept : ∀ g ∈ t.gameSessions, t.Attends userId g → { gameId := g.id, userId := g.creatorId } ∈ t'.participants → g ∈ t'.gameSessions
  handedOver : ∀ g ∈ t.gameSessions, t.Attends userId g → { gameId := g.id, userId := g.creatorId } ∉ t'.participants →
    ∀ v, { gameId := g.id, userId := v } ∈ t'.participants → (∀ w, { gameId := g.id, userId := w } ∈ t'.participants → v ≤ w) →
      { g with creatorId := v } ∈ t'.gameSessions
  others : ∀ g ∈ t.gameSessions, ¬ t.Attends userId g → g ∈ t'.gameSessions
  ids : t'.gameSessions.map (·.id) = t.gameSessions.map (·.id)
  participants : t'.participants = t.participants.filter (·.userId ≠ userId)
  stationUrls : t'.stationUrls = t.stationUrls.filter (·.userId ≠ userId)
  userSessions : t'.userSessions = t.userSessions.filter (·.userId ≠ userId)
  users : t'.users = t.users.map (fun u => if u.id = userId then { u with isOnline := false } else u)
  invites : t'.invites = t.invites
  parties : t'.parties = t.parties.filter (·.leaderId ≠ userId)
  member : ∀ m, m ∈ t'.partyMembers ↔
    m ∈ t.partyMembers ∧ m.userId ≠ userId ∧ ∀ party ∈ t.parties, party.id = m.partyId → party.leaderId ≠ userId

end Tables

namespace Logout

open Tables Cleanup

variable {t : Tables} {db : Database} {now : Time} {userId : Nat}

/-! ## The sessions -/

/-- Reconciling a session once more changes nothing. -/
theorem reconciled_reconciled (g : GameSessionRow) (now : Time) (typeId sessionId : Nat) (participants : List Nat) :
    (g.reconciled now typeId sessionId participants).reconciled now typeId sessionId participants =
      g.reconciled now typeId sessionId participants := by
  refine GameSessionRow.reconciled_eq_self.mpr fun hid htype hactive => ?_
  rcases GameSessionRow.reconciled_active hactive with ⟨-, ⟨-, hin⟩ | ⟨hkey, -⟩⟩
  · exact hin
  · rw [g.reconciled_id] at hid
    have htype' := (Prod.mk.inj (g.reconciled_key now typeId sessionId participants)).1
    rw [htype] at htype'
    exact absurd (Prod.ext htype'.symm hid) hkey

/-- Reconciling sessions one after the other reconciles those whose keys are listed. -/
theorem reconciledAll_eq (g : GameSessionRow) (now : Time) (participantIds : Nat → List Nat) (keys : List (Nat × Nat)) :
    g.reconciledAll now participantIds keys =
      if (g.typeId, g.id) ∈ keys then g.reconciled now g.typeId g.id (participantIds g.id) else g := by
  induction keys generalizing g with
  | nil => rfl
  | cons key keys ih =>
    have hhead : g.reconciledAll now participantIds (key :: keys) =
        (g.reconciled now key.1 key.2 (participantIds key.2)).reconciledAll now participantIds keys := rfl
    have hkey := g.reconciled_key now key.1 key.2 (participantIds key.2)
    obtain ⟨htype, hid⟩ := Prod.mk.inj hkey
    rw [hhead, ih, hkey, htype, hid]
    by_cases he : (g.typeId, g.id) = key
    · subst he
      rw [reconciled_reconciled, ite_self, if_pos List.mem_cons_self]
    · have hself : g.reconciled now key.1 key.2 (participantIds key.2) = g :=
        GameSessionRow.reconciled_eq_self.mpr fun hid htype _ => absurd (Prod.ext htype hid) he
      simp only [hself, List.mem_cons, he, false_or]

/-- The sessions reconciled are those the user attends. -/
theorem mem_affectedSessions {g : GameSessionRow} (hg : g ∈ db.gameSessions) :
    (g.typeId, g.id) ∈ db.affectedSessions userId ↔ db.Attends userId g := by
  simp only [affectedSessions, List.mem_map, List.mem_filter, decide_eq_true_eq, Prod.mk.injEq]
  constructor
  · rintro ⟨g', ⟨hg', hattends⟩, -, hid⟩
    rw [db.session_unique hg hg' hid.symm]
    exact hattends
  · exact fun hattends => ⟨g, ⟨hg, hattends⟩, rfl, rfl⟩

/-- What becomes of a session. -/
theorem mem_gameSessions_cleanedUp {g : GameSessionRow} (hg : g ∈ db.gameSessions) :
    (if db.Attends userId g then g.reconciled now g.typeId g.id ((db.cleanedUp now userId).participantIds g.id) else g) ∈
      (db.cleanedUp now userId).gameSessions := by
  refine List.mem_map.mpr ⟨g, ?_, ?_⟩
  · have hsame : (db.withoutUser userId).gameSessions = db.gameSessions := (shrinks_withoutParticipants db.toTables userId).gameSessions
    rwa [hsame]
  · simp only [reconciledAll_eq, mem_affectedSessions hg]
    rfl

/-- The first of ordered ids is the smallest. -/
theorem head_orderIds_le {ids rest : List Nat} {first n : Nat} (h : orderIds ids = first :: rest) (hn : n ∈ ids) : first ≤ n := by
  have hsorted := List.pairwise_insertionSort (· ≤ ·) ids
  have hmem := mem_orderIds.mpr hn
  unfold orderIds at h hmem
  rw [h] at hsorted hmem
  rcases List.mem_cons.mp hmem with rfl | hmem
  · exact le_refl _
  · exact List.rel_of_pairwise_cons hsorted hmem

/-- An active session is reconciled with the users that remain in it. -/
theorem reconciled_remaining {g : GameSessionRow} (hactive : g.destroyedAt = none) (t' : Tables) :
    ((∀ v, { gameId := g.id, userId := v } ∉ t'.participants) →
      g.reconciled now g.typeId g.id (t'.participantIds g.id) = { g with destroyedAt := some now }) ∧
    ({ gameId := g.id, userId := g.creatorId } ∈ t'.participants → g.reconciled now g.typeId g.id (t'.participantIds g.id) = g) ∧
    ({ gameId := g.id, userId := g.creatorId } ∉ t'.participants → ∀ v, { gameId := g.id, userId := v } ∈ t'.participants →
      (∀ w, { gameId := g.id, userId := w } ∈ t'.participants → v ≤ w) →
      g.reconciled now g.typeId g.id (t'.participantIds g.id) = { g with creatorId := v }) := by
  unfold GameSessionRow.reconciled
  rw [if_pos ⟨rfl, rfl, hactive⟩]
  cases hids : t'.participantIds g.id with
  | nil =>
    have hnone : ∀ v, { gameId := g.id, userId := v } ∉ t'.participants := fun v hv => by
      have := mem_participantIds.mpr hv
      rw [hids] at this
      nomatch this
    exact ⟨fun _ => rfl, fun h => absurd h (hnone _), fun _ v hv => absurd hv (hnone v)⟩
  | cons first rest =>
    have hfirst : { gameId := g.id, userId := first } ∈ t'.participants := mem_participantIds.mp (hids ▸ List.mem_cons_self)
    refine ⟨fun h => absurd hfirst (h first), fun hin => ?_, fun hout v hv hmin => ?_⟩
    · rw [← mem_participantIds, hids] at hin
      exact if_pos hin
    · rw [← mem_participantIds, hids] at hout
      have hle : first ≤ v := head_orderIds_le hids (List.mem_map.mpr ⟨_, List.mem_filter.mpr ⟨hv, decide_eq_true rfl⟩, rfl⟩)
      rw [le_antisymm (hmin first hfirst) hle]
      exact if_neg hout

/-! ## The parties -/

/-- A user that leads no party and is in none. -/
def Unpartied (t : Tables) (userId : Nat) : Prop :=
  (∀ party ∈ t.parties, party.leaderId ≠ userId) ∧ ∀ m ∈ t.partyMembers, m.userId ≠ userId

/-- The trigger changes no party for a user that is in none. -/
theorem deleteParticipants_unpartied {t : Tables} (h : Unpartied t userId) :
    (t.deleteParticipants (·.userId = userId)).parties = t.parties ∧
      (t.deleteParticipants (·.userId = userId)).partyMembers = t.partyMembers := by
  have hrows : ∀ row ∈ t.participants.filter (·.userId = userId), row.userId = userId := by
    intro row hrow
    exact of_decide_eq_true (List.mem_filter.mp hrow).2
  unfold deleteParticipants
  generalize t.participants.filter (·.userId = userId) = rows at hrows
  induction rows generalizing t with
  | nil => exact ⟨rfl, rfl⟩
  | cons row rows ih =>
    have hself : row.userId = userId := hrows row List.mem_cons_self
    have hparties : t.parties.filter (fun party => !decide (party.leaderId = row.userId)) = t.parties :=
      filter_eq_self_of_ne (hself ▸ h.1)
    have hcascade : t.partyMembers.filter (fun m => !t.parties.any (fun party => decide (party.leaderId = row.userId) &&
        party.id == m.partyId)) = t.partyMembers := by
      refine List.filter_eq_self.mpr fun m _ => ?_
      rw [Bool.not_eq_true', List.any_eq_false]
      intro party hparty
      simp [hself, h.1 party hparty]
    have hmembers : t.partyMembers.filter (fun m => !decide (m.userId = row.userId)) = t.partyMembers :=
      filter_eq_self_of_ne (hself ▸ h.2)
    have hstep : (t.deleteParticipant row).parties = t.parties ∧ (t.deleteParticipant row).partyMembers = t.partyMembers := by
      unfold deleteParticipant
      rcases partyMemberLeaveLobby_cases { t with participants := t.participants.filter (· ≠ row) } row with he | he
      · rw [he]
        exact ⟨rfl, rfl⟩
      · rw [he]
        refine ⟨hparties, ?_⟩
        simp only [deleteParties, deletePartyMembers]
        rw [hcascade, hmembers]
    obtain ⟨hp, hm⟩ := @ih (t.deleteParticipant row) ⟨hstep.1 ▸ h.1, hstep.2 ▸ h.2⟩ fun r hr => hrows r (List.mem_cons_of_mem _ hr)
    exact ⟨hp.trans hstep.1, hm.trans hstep.2⟩

/-- The user is in no party once its own was deleted and it left the one it was in. -/
theorem unpartied_leave (t : Tables) (userId : Nat) :
    Unpartied ((t.deleteParties (·.leaderId = userId)).deletePartyMembers (·.userId = userId)) userId := by
  constructor
  · intro party hparty
    simpa using (List.mem_filter.mp hparty).2
  · intro m hm
    simpa using (List.mem_filter.mp hm).2

/-- The parties that are left. -/
theorem parties_cleanedUp (t : Tables) (now : Time) (userId : Nat) :
    (t.cleanedUp now userId).parties = t.parties.filter (·.leaderId ≠ userId) := by
  refine (deleteParticipants_unpartied (unpartied_leave t userId)).1.trans ?_
  exact List.filter_congr fun party _ => by simp

/-- The members of parties that are left. -/
theorem mem_partyMembers_cleanedUp {m : PartyMemberRow} :
    m ∈ (t.cleanedUp now userId).partyMembers ↔
      m ∈ t.partyMembers ∧ m.userId ≠ userId ∧ ∀ party ∈ t.parties, party.id = m.partyId → party.leaderId ≠ userId := by
  have hrows : (t.cleanedUp now userId).partyMembers =
      ((t.deleteParties (·.leaderId = userId)).deletePartyMembers (·.userId = userId)).partyMembers :=
    (deleteParticipants_unpartied (unpartied_leave t userId)).2
  rw [hrows]
  simp only [deletePartyMembers, deleteParties, List.mem_filter, Bool.not_eq_true', List.any_eq_false, Bool.and_eq_true,
    decide_eq_true_eq, decide_eq_false_iff_not, beq_iff_eq, not_and]
  constructor
  · rintro ⟨⟨hm, hparties⟩, hne⟩
    exact ⟨hm, hne, fun party hparty hid hl => hparties party hparty hl hid⟩
  · rintro ⟨hm, hne, hparties⟩
    exact ⟨⟨hm, fun party hparty hl hid => hparties party hparty hid hl⟩, hne⟩

/-! ## The logout -/

/-- Nothing of the user is left. -/
theorem absent_cleanedUp (t : Tables) (now : Time) (userId : Nat) : (t.cleanedUp now userId).Absent userId where
  leader _ := leaderId_cleanedUp
  member _ := member_cleanedUp
  participant _ hp := (mem_participants_cleanedUp.mp hp).2
  stationUrl _ hr := (mem_stationUrls_cleanedUp.mp hr).2
  userSession _ hr := by simpa using (List.mem_filter.mp hr).2
  online := by
    intro u hu hid
    obtain ⟨u', -, rfl⟩ := List.mem_map.mp hu
    by_cases hself : u'.id = userId
    · rw [if_pos (decide_eq_true hself)]
    · rw [if_neg (by simpa using hself)] at hid
      exact absurd hid hself
  creator _ hg hactive := creatorId_cleanedUp hg hactive

/-- A cleanup leaves what a logout should. -/
theorem logsOut_cleanedUp (db : Database) (now : Time) (userId : Nat) : db.LogsOut now userId (db.cleanedUp now userId) where
  absent := absent_cleanedUp db.toTables now userId
  destroyed := by
    intro g hg hattends hnone
    have hmem := @mem_gameSessions_cleanedUp db now userId g hg
    rwa [if_pos hattends, (reconciled_remaining hattends.1 _).1 hnone] at hmem
  kept := by
    intro g hg hattends hin
    have hmem := @mem_gameSessions_cleanedUp db now userId g hg
    rwa [if_pos hattends, (reconciled_remaining hattends.1 _).2.1 hin] at hmem
  handedOver := by
    intro g hg hattends hout v hv hmin
    have hmem := @mem_gameSessions_cleanedUp db now userId g hg
    rwa [if_pos hattends, (reconciled_remaining hattends.1 _).2.2 hout v hv hmin] at hmem
  others := by
    intro g hg hattends
    have hmem := @mem_gameSessions_cleanedUp db now userId g hg
    rwa [if_neg hattends] at hmem
  ids := by
    have hsame : (db.withoutUser userId).gameSessions = db.gameSessions := (shrinks_withoutParticipants db.toTables userId).gameSessions
    simp only [cleanedUp, reconcileAll, List.map_map, hsame]
    refine List.map_congr_left fun g _ => ?_
    simp only [Function.comp_apply, reconciledAll_eq]
    split
    · exact g.reconciled_id ..
    · rfl
  participants := by
    rw [participants_cleanedUp]
    exact List.filter_congr fun p _ => by simp
  stationUrls := by
    have hrows : (db.cleanedUp now userId).stationUrls = db.stationUrls.filter (fun r => !decide (r.userId = userId)) := by
      exact congrArg (List.filter _) (stationUrls_deleteParticipants _ _)
    rw [hrows]
    exact List.filter_congr fun r _ => by simp
  userSessions := by
    have hrows : (db.cleanedUp now userId).userSessions = db.userSessions.filter (fun r => !decide (r.userId = userId)) := by
      exact congrArg (List.filter _) (rows_deleteParticipants (f := (·.userSessions)) (fun _ _ _ _ => rfl) _ _)
    rw [hrows]
    exact List.filter_congr fun r _ => by simp
  users := by
    have hrows : (db.cleanedUp now userId).users =
        db.users.map (fun u => if decide (u.id = userId) = true then { u with isOnline := false } else u) := by
      exact congrArg (List.map _) (rows_deleteParticipants (f := (·.users)) (fun _ _ _ _ => rfl) _ _)
    rw [hrows]
    simp only [decide_eq_true_eq]
  invites := rows_deleteParticipants (f := (·.invites)) (fun _ _ _ _ => rfl) _ _
  parties := parties_cleanedUp _ _ _
  member _ := mem_partyMembers_cleanedUp

end Logout

open Logout Cleanup

/-- In every state a logout succeeds and leaves nothing of the user; a session the user hosted or attended is destroyed when nobody
remains, keeps its creator when that remains, and goes to the smallest remaining id otherwise; everything else is as it was. The cleanup
of another operation does the same. -/
theorem logout_complete (now : Time) (userId : Nat) (db : Database) :
    let after := deleteUserSession now userId db
    (after.2 = .ok () ∧ db.LogsOut now userId after.1.toTables) ∧
      ∀ ρ : Type, wp (cleanupUserGameState now userId : StorageTx ρ Unit) (fun _ db' => db.LogsOut now userId db'.toTables)
        (fun _ => False) db := by
  have hcleanup : ∀ ρ : Type, wp (cleanupUserGameState now userId : StorageTx ρ Unit)
      (fun _ db' => db.LogsOut now userId db'.toTables) (fun _ => False) db := by
    intro ρ
    refine wp_mono (wp_cleanupUserGameState now userId) fun _ db' h => ?_
    rw [h]
    exact logsOut_cleanedUp db now userId
  refine ⟨?_, hcleanup⟩
  refine transaction_of_wp (P := fun r : Database × Except StorageError Unit => r.2 = .ok () ∧ db.LogsOut now userId r.1.toTables) ?_
  exact wp_weaken (hcleanup Unit) (fun _ _ h => ⟨rfl, h⟩) fun _ he => he.elim

namespace Logout

/-- The host 1001 of a session with the users 1000 and 1002 is removed from it under another type, so that the session keeps a
creator that does not take part. -/
def strandingCalls : List Call :=
  [⟨1000, .createGameSession 1001 7 []⟩, ⟨1001, .addParticipants 1001 7 2 [] [1000, 1002]⟩, ⟨1002, .removeParticipants 8 2 [1001]⟩]

end Logout

/-- When the user 1002 then logs out, the session goes to the user 1000, although its creator was not the user. -/
theorem logout_complete_false :
    let db := run (step Host.noHash) migrated strandingCalls
    let after := (deleteUserSession 1010 1002 db).1
    ∃ g ∈ db.gameSessions, g.destroyedAt = none ∧ { gameId := g.id, userId := 1002 } ∈ db.participants ∧ g.creatorId ≠ 1002 ∧
      (∃ p ∈ after.participants, p.gameId = g.id) ∧ ∀ g' ∈ after.gameSessions, g'.id = g.id → g'.creatorId ≠ g.creatorId := by
  decide +kernel

end Scbl.Storage
