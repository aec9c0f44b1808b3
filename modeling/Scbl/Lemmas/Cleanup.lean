import Scbl.Lemmas.Accounts
import Scbl.Lemmas.Isolation
import Scbl.Lemmas.Sessions

/-!
# What cleaning up after a user leaves

`cleanupUserGameState` never fails, so what it leaves is a function of the tables, `cleanedUp`: the user's rows are deleted, and the
sessions it created or took part in are reconciled row by row. From it follows what the closing of a secure session and the sweep over
the stale users leave.
-/

namespace Scbl.Storage

open Scbl.Lib

/-- A session after sessions were reconciled one after the other, with participants that stay. -/
def GameSessionRow.reconciledAll (g : GameSessionRow) (now : Time) (participantIds : Nat → List Nat) (keys : List (Nat × Nat)) :
    GameSessionRow :=
  keys.foldl (fun g key => g.reconciled now key.1 key.2 (participantIds key.2)) g

namespace Tables

/-- The rows of a user deleted, and the user offline. -/
def withoutUser (t : Tables) (userId : Nat) : Tables :=
  ((((((t.deleteParties (·.leaderId = userId)).deletePartyMembers (·.userId = userId)).deleteParticipants
    (·.userId = userId)).deleteStationUrls (·.userId = userId)).deleteUserSessions (·.userId = userId)).updateUsers
    (·.id = userId) ({ · with isOnline := false }))

/-- Sessions reconciled one after the other. -/
def reconcileAll (t : Tables) (now : Time) (keys : List (Nat × Nat)) : Tables :=
  { t with gameSessions := t.gameSessions.map (·.reconciledAll now t.participantIds keys) }

/-- The tables after cleaning up after a user. -/
def cleanedUp (t : Tables) (now : Time) (userId : Nat) : Tables := (t.withoutUser userId).reconcileAll now (t.affectedSessions userId)

/-- Nothing of a user is left: it is offline, in no table, and the creator of no active session. -/
structure Absent (t : Tables) (userId : Nat) : Prop where
  leader : ∀ party ∈ t.parties, party.leaderId ≠ userId
  member : ∀ m ∈ t.partyMembers, m.userId ≠ userId
  participant : ∀ p ∈ t.participants, p.userId ≠ userId
  stationUrl : ∀ r ∈ t.stationUrls, r.userId ≠ userId
  userSession : ∀ r ∈ t.userSessions, r.userId ≠ userId
  online : ∀ u ∈ t.users, u.id = userId → u.isOnline = false
  creator : ∀ g ∈ t.gameSessions, g.destroyedAt = none → g.creatorId ≠ userId

/-- The tables after the secure sessions of a user were deleted. -/
def closed (t : Tables) (userId : Nat) : Tables :=
  (t.deleteUserSessions (·.userId = userId)).updateUsers (·.id = userId) ({ · with isOnline := false })

end Tables

namespace Cleanup

open Tables

/-! ## The operations never fail -/

section Wp

variable {ρ : Type} {db : Database}

theorem shrinks_deleteStationUrls (t : Tables) (p : StationUrlRow → Bool) : t.Shrinks (t.deleteStationUrls p) :=
  ⟨rfl, rfl, .refl _, List.filter_sublist, .refl _, .refl _, .refl _, .refl _, fun _ _ h => h, rfl⟩

theorem shrinks_deleteUserSessions (t : Tables) (p : UserSessionRow → Bool) : t.Shrinks (t.deleteUserSessions p) :=
  ⟨rfl, rfl, .refl _, .refl _, List.filter_sublist, .refl _, .refl _, .refl _, fun _ _ h => h, rfl⟩

/-- A statement that only deletes rows succeeds. -/
theorem wp_shrinks {f : Tables → Tables} (hf : ∀ t : Tables, t.Shrinks (f t)) {Q : Unit → Database → Prop}
    (hq : ∀ db' : Database, db'.toTables = f db.toTables → Q () db') : wp (statement f : StorageTx ρ Unit) Q (fun _ => False) db :=
  wp_statement_ok ((hf db.toTables).integrity db.integrity) hq

/-- Setting users offline succeeds. -/
theorem wp_offline {p : UserRow → Bool} {Q : Unit → Database → Prop}
    (hq : ∀ db' : Database, db'.toTables = db.updateUsers p ({ · with isOnline := false }) → Q () db') :
    wp (statement (·.updateUsers p ({ · with isOnline := false })) : StorageTx ρ Unit) Q (fun _ => False) db :=
  wp_statement_ok (db.integrity.updateUsers fun _ => rfl) hq

/-- Reconciling sessions one after the other. -/
theorem wp_reconcileAll (now : Time) (keys : List (Nat × Nat)) :
    wp (keys.forM (fun (typeId, sessionId) => do let _ ← reconcileGameSession now typeId sessionId) : StorageTx ρ PUnit)
      (fun _ db' => db'.toTables = db.reconcileAll now keys) (fun _ => False) db := by
  -- what is left to do, done to the tables there are, gives the tables at the end
  let I : List (Nat × Nat) → Database → Prop := fun rest db' => db'.reconcileAll now rest = db.reconcileAll now keys
  have hstep : ∀ key rest db', I (key :: rest) db' →
      wp (do let _ ← reconcileGameSession now key.1 key.2 : StorageTx ρ PUnit) (fun _ db'' => I rest db'') (fun _ => False) db' := by
    intro key rest db' h
    rw [wp_bind]
    refine wp_mono (wp_reconcileGameSession now key.1 key.2) fun _ db'' h' => ?_
    refine Eq.trans ?_ h
    rw [h', reconcileAll, reconcileAll, List.map_map]
    rfl
  refine wp_mono (wp_forM I hstep (rfl : I keys db)) fun _ db' h => ?_
  have hnil : db'.reconcileAll now [] = db'.toTables := by
    have hid : db'.gameSessions.map (·.reconciledAll now db'.participantIds []) = db'.gameSessions := List.map_id _
    rw [reconcileAll, hid]
  exact hnil.symm.trans h

/-- Cleaning up after a user succeeds. -/
theorem wp_cleanupUserGameState (now : Time) (userId : Nat) :
    wp (cleanupUserGameState now userId : StorageTx ρ Unit) (fun _ db' => db'.toTables = db.cleanedUp now userId)
      (fun _ => False) db := by
  unfold cleanupUserGameState
  rw [wp_bind, wp_query, wp_bind]
  refine wp_shrinks (fun t => t.shrinks_deleteParties _) fun db₁ h₁ => ?_
  rw [wp_bind]
  refine wp_shrinks (fun t => t.shrinks_deletePartyMembers _) fun db₂ h₂ => ?_
  rw [wp_bind]
  refine wp_shrinks (fun t => t.shrinks_deleteParticipants _) fun db₃ h₃ => ?_
  rw [wp_bind]
  refine wp_shrinks (fun t => shrinks_deleteStationUrls t _) fun db₄ h₄ => ?_
  rw [wp_bind]
  refine wp_shrinks (fun t => shrinks_deleteUserSessions t _) fun db₅ h₅ => ?_
  rw [wp_bind]
  refine wp_offline fun db₆ h₆ => ?_
  refine wp_mono (wp_reconcileAll now _) fun _ db' h => ?_
  rw [h, h₆, h₅, h₄, h₃, h₂, h₁]
  rfl

end Wp

/-- A transaction that goes on to one state commits it. -/
theorem transaction_of_never {ρ : Type} {m : StorageTx ρ ρ} {db : Database} {P : Database → Prop}
    (h : wp m (fun _ db' => P db') (fun _ => False) db) : P (transaction m db).1 :=
  transaction_of_wp (P := fun r => P r.1) (wp_weaken h (fun _ _ h' => h') fun _ h' => h'.elim)

/-- Closing the secure session of a user the API has seen. -/
theorem closeSecureSession_fresh {now : Time} {userId : Nat} {db : Database} (h : db.recentApi now userId = true) :
    (closeSecureSession now userId db).1.toTables = db.closed userId := by
  refine transaction_of_never (P := fun db' => db'.toTables = db.closed userId) ?_
  rw [wp_bind, wp_query, wp_bind]
  refine wp_shrinks (fun t => shrinks_deleteUserSessions t _) fun db₁ h₁ => ?_
  rw [wp_bind]
  refine wp_offline fun db₂ h₂ => ?_
  rw [h, if_pos rfl, wp_pure, h₂, h₁]
  rfl

/-- Closing the secure session of a user the API has not seen. -/
theorem closeSecureSession_stale {now : Time} {userId : Nat} {db : Database} (h : db.recentApi now userId = false) :
    (closeSecureSession now userId db).1.toTables = (db.closed userId).cleanedUp now userId := by
  refine transaction_of_never (P := fun db' => db'.toTables = (db.closed userId).cleanedUp now userId) ?_
  rw [wp_bind, wp_query, wp_bind]
  refine wp_shrinks (fun t => shrinks_deleteUserSessions t _) fun db₁ h₁ => ?_
  rw [wp_bind]
  refine wp_offline fun db₂ h₂ => ?_
  rw [h, if_neg Bool.false_ne_true, wp_bind]
  refine wp_mono (wp_cleanupUserGameState now userId) fun _ db₃ h₃ => ?_
  rw [wp_pure, h₃, h₂, h₁]
  rfl

/-- The sweep cleans up after the stale users one after the other. -/
theorem cleanupStaleApiSessions_tables (now : Time) (db : Database) :
    (cleanupStaleApiSessions now db).1.toTables = (db.staleUsers now).foldl (fun t userId => t.cleanedUp now userId) db.toTables := by
  let final := (db.staleUsers now).foldl (fun t userId => t.cleanedUp now userId) db.toTables
  refine transaction_of_never (P := fun db' => db'.toTables = final) ?_
  rw [wp_bind, wp_query]
  let I : List Nat → Database → Prop := fun rest db' => rest.foldl (fun t userId => t.cleanedUp now userId) db'.toTables = final
  have hstep : ∀ userId rest db', I (userId :: rest) db' →
      wp (cleanupUserGameState now userId : StorageTx Unit Unit) (fun _ db'' => I rest db'') (fun _ => False) db' := by
    intro userId rest db' h
    refine wp_mono (wp_cleanupUserGameState now userId) fun _ db'' h' => ?_
    refine Eq.trans ?_ h
    rw [List.foldl_cons, ← h']
  exact wp_forM I hstep (rfl : I (db.staleUsers now) db)

/-! ## What is left -/

section Left

variable {t : Tables} {now : Time} {userId : Nat}

/-- The participants that are left. -/
theorem participants_cleanedUp (t : Tables) (now : Time) (userId : Nat) :
    (t.cleanedUp now userId).participants = t.participants.filter (fun p => !decide (p.userId = userId)) :=
  participants_deleteParticipants _ _

theorem mem_participants_cleanedUp {p : ParticipantRow} :
    p ∈ (t.cleanedUp now userId).participants ↔ p ∈ t.participants ∧ p.userId ≠ userId := by
  rw [participants_cleanedUp, List.mem_filter, Bool.not_eq_true', decide_eq_false_iff_not]

/-- Deleting participants leaves the endpoints alone. -/
theorem stationUrls_deleteParticipants (t : Tables) (p : ParticipantRow → Bool) :
    (t.deleteParticipants p).stationUrls = t.stationUrls :=
  rows_deleteParticipants (f := (·.stationUrls)) (fun _ _ _ _ => rfl) t p

theorem mem_stationUrls_cleanedUp {r : StationUrlRow} :
    r ∈ (t.cleanedUp now userId).stationUrls ↔ r ∈ t.stationUrls ∧ r.userId ≠ userId := by
  have hrows : (t.cleanedUp now userId).stationUrls =
      (((t.deleteParties (·.leaderId = userId)).deletePartyMembers (·.userId = userId)).deleteParticipants
        (·.userId = userId)).stationUrls.filter (fun r => !decide (r.userId = userId)) := rfl
  rw [hrows, stationUrls_deleteParticipants, List.mem_filter, Bool.not_eq_true', decide_eq_false_iff_not]
  rfl

/-- What the deletion of the participants leaves of the tables before it. -/
theorem shrinks_withoutParticipants (t : Tables) (userId : Nat) :
    ((t.deleteParties (·.leaderId = userId)).deletePartyMembers (·.userId = userId)).Shrinks
      (((t.deleteParties (·.leaderId = userId)).deletePartyMembers (·.userId = userId)).deleteParticipants (·.userId = userId)) :=
  shrinks_deleteParticipants _ _

/-- The user leads no party. -/
theorem leaderId_cleanedUp {party : PartyRow} (h : party ∈ (t.cleanedUp now userId).parties) : party.leaderId ≠ userId := by
  have hmem := (shrinks_withoutParticipants t userId).parties.subset h
  simpa using (List.mem_filter.mp hmem).2

/-- The user is in no party. -/
theorem member_cleanedUp {m : PartyMemberRow} (h : m ∈ (t.cleanedUp now userId).partyMembers) : m.userId ≠ userId := by
  have hmem := (shrinks_withoutParticipants t userId).partyMembers.subset h
  simpa using (List.mem_filter.mp hmem).2

/-- What a cleanup takes from a table, the cleanups after several users take for each of them. -/
theorem mem_foldl_cleanedUp {α : Type} {rows : Tables → List α} {owner : α → Nat}
    (hrows : ∀ (t : Tables) (userId : Nat) (r : α), r ∈ rows (t.cleanedUp now userId) ↔ r ∈ rows t ∧ owner r ≠ userId)
    (users : List Nat) (t : Tables) (r : α) :
    r ∈ rows (users.foldl (fun t userId => t.cleanedUp now userId) t) ↔ r ∈ rows t ∧ owner r ∉ users := by
  induction users generalizing t with
  | nil => simp
  | cons userId users ih => rw [List.foldl_cons, ih, hrows, List.mem_cons, not_or, and_assoc]

/-! ### The sessions -/

/-- A session that is active after it was reconciled and whose creator takes part in no session was active before, by the same
creator, and under another key. -/
theorem creator_of_reconciled {g : GameSessionRow} {typeId sessionId : Nat} {participants : List Nat}
    (hnone : userId ∉ participants) (hactive : (g.reconciled now typeId sessionId participants).destroyedAt = none)
    (hcreator : (g.reconciled now typeId sessionId participants).creatorId = userId) :
    g.destroyedAt = none ∧ g.creatorId = userId ∧ (g.typeId, g.id) ≠ (typeId, sessionId) := by
  rcases GameSessionRow.reconciled_active hactive with ⟨hactive', ⟨-, hin⟩ | ⟨hkey, hsame⟩⟩
  · exact absurd (hcreator ▸ hin) hnone
  · rw [hsame] at hcreator
    exact ⟨hactive', hcreator, hkey⟩

/-- After sessions were reconciled, a user who takes part in none is the creator of no active one among them. -/
theorem creator_of_reconciledAll {participantIds : Nat → List Nat} (hnone : ∀ gameId, userId ∉ participantIds gameId)
    {keys : List (Nat × Nat)} {g : GameSessionRow} (hactive : (g.reconciledAll now participantIds keys).destroyedAt = none)
    (hcreator : (g.reconciledAll now participantIds keys).creatorId = userId) :
    g.destroyedAt = none ∧ g.creatorId = userId ∧ (g.typeId, g.id) ∉ keys := by
  induction keys generalizing g with
  | nil => exact ⟨hactive, hcreator, List.not_mem_nil⟩
  | cons key keys ih =>
    obtain ⟨hactive', hcreator', hkeys⟩ := ih hactive hcreator
    rw [GameSessionRow.reconciled_key] at hkeys
    obtain ⟨hactive'', hcreator'', hne⟩ := creator_of_reconciled (hnone key.2) hactive' hcreator'
    exact ⟨hactive'', hcreator'', fun hmem => (List.mem_cons.mp hmem).elim hne hkeys⟩

/-- The user is the creator of no active session. -/
theorem creatorId_cleanedUp {g : GameSessionRow} (h : g ∈ (t.cleanedUp now userId).gameSessions) (hactive : g.destroyedAt = none) :
    g.creatorId ≠ userId := by
  intro hcreator
  obtain ⟨g', hg', rfl⟩ := List.mem_map.mp h
  have hnone : ∀ gameId, userId ∉ (t.withoutUser userId).participantIds gameId := by
    intro gameId hin
    exact ((@mem_participants_cleanedUp t now userId _).mp (mem_participantIds.mp hin)).2 rfl
  obtain ⟨hactive', hcreator', hkeys⟩ := creator_of_reconciledAll hnone hactive hcreator
  -- the session was one of those the user created, which are all reconciled
  have hmem : g' ∈ t.gameSessions := by
    have hsame : (t.withoutUser userId).gameSessions = t.gameSessions := (shrinks_withoutParticipants t userId).gameSessions
    rwa [hsame] at hg'
  refine hkeys (List.mem_map.mpr ⟨g', List.mem_filter.mpr ⟨hmem, ?_⟩, rfl⟩)
  exact decide_eq_true ⟨hactive', Or.inl hcreator'⟩

/-! ### Nothing but what there is -/

theorem filter_eq_self_of_ne {α : Type} {rows : List α} {owner : α → Nat} (h : ∀ r ∈ rows, owner r ≠ userId) :
    rows.filter (fun r => !decide (owner r = userId)) = rows :=
  List.filter_eq_self.mpr fun r hr => by simpa using h r hr

/-- Setting an offline user offline changes nothing. -/
theorem updateUsers_offline (h : ∀ u ∈ t.users, u.id = userId → u.isOnline = false) :
    t.updateUsers (·.id = userId) ({ · with isOnline := false }) = t := by
  have hrows : t.users.map (fun u => if decide (u.id = userId) then { u with isOnline := false } else u) = t.users := by
    refine (List.map_congr_left fun u hu => ?_).trans (List.map_id _)
    split
    · rename_i hid
      rw [← h u hu (of_decide_eq_true hid), id]
    · rfl
  rw [updateUsers, hrows]

/-- Where nothing of the user is left, a cleanup changes nothing. -/
theorem cleanedUp_of_absent (h : t.Absent userId) (now : Time) : t.cleanedUp now userId = t := by
  have hparties : t.deleteParties (·.leaderId = userId) = t := by
    have hmembers : t.partyMembers.filter (fun m => !t.parties.any (fun party => decide (party.leaderId = userId) && party.id == m.partyId)) =
        t.partyMembers := by
      refine List.filter_eq_self.mpr fun m _ => ?_
      rw [Bool.not_eq_true', List.any_eq_false]
      intro party hparty
      simp [h.leader party hparty]
    rw [deleteParties, hmembers, filter_eq_self_of_ne h.leader]
  have hmembers : t.deletePartyMembers (·.userId = userId) = t := by rw [deletePartyMembers, filter_eq_self_of_ne h.member]
  have hparticipants : t.deleteParticipants (·.userId = userId) = t := by
    have hnone : t.participants.filter (·.userId = userId) = [] :=
      List.filter_eq_nil_iff.mpr fun p hp => by simpa using h.participant p hp
    rw [deleteParticipants, hnone, List.foldl_nil]
  have hurls : t.deleteStationUrls (·.userId = userId) = t := by rw [deleteStationUrls, filter_eq_self_of_ne h.stationUrl]
  have hsessions : t.deleteUserSessions (·.userId = userId) = t := by rw [deleteUserSessions, filter_eq_self_of_ne h.userSession]
  have hkeys : t.affectedSessions userId = [] := by
    refine List.map_eq_nil_iff.mpr (List.filter_eq_nil_iff.mpr fun g hg => ?_)
    simp only [decide_eq_true_eq, not_and, not_or]
    exact fun hactive => ⟨h.creator g hg hactive, fun hin => h.participant _ hin rfl⟩
  have hrows : t.gameSessions.map (·.reconciledAll now t.participantIds []) = t.gameSessions := List.map_id _
  rw [cleanedUp, withoutUser, hparties, hmembers, hparticipants, hurls, hsessions, updateUsers_offline h.online, hkeys, reconcileAll, hrows]

/-! ### The time of a cleanup -/

/-- Two rows are of one session, with the same creator, and both active or both destroyed. -/
structure SameSession (g g' : GameSessionRow) : Prop where
  id : g.id = g'.id
  typeId : g.typeId = g'.typeId
  creatorId : g.creatorId = g'.creatorId
  active : g.destroyedAt = none ↔ g'.destroyedAt = none

/-- When a session is reconciled only shows in the time of its destruction. -/
theorem SameSession.reconciled {g g' : GameSessionRow} (h : SameSession g g') (now now' : Time) (typeId sessionId : Nat)
    (participants : List Nat) :
    SameSession (g.reconciled now typeId sessionId participants) (g'.reconciled now' typeId sessionId participants) := by
  have hkeys : (g.id = sessionId ∧ g.typeId = typeId ∧ g.destroyedAt = none) ↔
      (g'.id = sessionId ∧ g'.typeId = typeId ∧ g'.destroyedAt = none) := by rw [h.id, h.typeId, h.active]
  unfold GameSessionRow.reconciled
  by_cases hkey : g.id = sessionId ∧ g.typeId = typeId ∧ g.destroyedAt = none
  · rw [if_pos hkey, if_pos (hkeys.mp hkey)]
    cases participants with
    | nil => exact ⟨h.id, h.typeId, h.creatorId, iff_of_false nofun nofun⟩
    | cons newCreatorId rest =>
      simp only [h.creatorId]
      split
      · exact h
      · exact ⟨h.id, h.typeId, rfl, h.active⟩
  · rwa [if_neg hkey, if_neg (fun hkey' => hkey (hkeys.mpr hkey'))]

theorem SameSession.reconciledAll {g g' : GameSessionRow} (h : SameSession g g') (now now' : Time) (participantIds : Nat → List Nat)
    (keys : List (Nat × Nat)) : SameSession (g.reconciledAll now participantIds keys) (g'.reconciledAll now' participantIds keys) := by
  induction keys generalizing g g' with
  | nil => exact h
  | cons key keys ih => exact ih (h.reconciled now now' key.1 key.2 (participantIds key.2))

end Left

end Cleanup

end Scbl.Storage
