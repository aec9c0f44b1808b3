import Scbl.Lemmas.Executions

/-!
# What an operation does to the sessions of others

A session is foreign to a user who neither created it nor takes part in it. An operation `Isolates` a user when it leaves the
sessions that are foreign to the user, and their participants, as they were. For the operations that take a key from the client it
is computed when they do, from what they do to the session with that key.
-/

namespace Scbl.Storage

open Scbl.Lib

namespace Tables

/-- A user neither created a session nor takes part in it. -/
def Foreign (t : Tables) (userId : Nat) (g : GameSessionRow) : Prop :=
  g.creatorId ≠ userId ∧ { gameId := g.id, userId } ∉ t.participants

instance (t : Tables) (userId : Nat) (g : GameSessionRow) : Decidable (t.Foreign userId g) :=
  inferInstanceAs (Decidable (_ ∧ _))

/-- The sessions that are foreign to a user are left as they were, with their participants. -/
def Isolates (userId : Nat) (t t' : Tables) : Prop :=
  ∀ g ∈ t.gameSessions, t.Foreign userId g →
    g ∈ t'.gameSessions ∧ ∀ v, { gameId := g.id, userId := v } ∈ t'.participants ↔ { gameId := g.id, userId := v } ∈ t.participants

theorem isolates_refl (userId : Nat) (t : Tables) : t.Isolates userId t := fun _ hg _ => ⟨hg, fun _ => Iff.rfl⟩

end Tables

namespace Tables

/-- A private participant is inserted, and not left to the join of an accepted invitation, unless that is the host's own. -/
def admitsPrivate (t : Tables) (now : Time) (callerId typeId sessionId creatorId userId : Nat) : Bool :=
  match t.pendingInviteSender now userId typeId sessionId with
  | none => true
  | some inviteSender => callerId = creatorId ∧ inviteSender = callerId

/-- The users an addition of participants inserts. -/
def admitted (t : Tables) (now : Time) (callerId typeId sessionId creatorId : Nat) (privateParticipants publicParticipants : List Nat) :
    List Nat :=
  publicParticipants ++ privateParticipants.filter (t.admitsPrivate now callerId typeId sessionId creatorId)

end Tables

namespace Isolation

variable {ρ : Type} {db db' : Database}

/-- A session stays under a change of the sessions that keeps their ids exactly when the change does not change it. -/
theorem mem_map_iff {f : GameSessionRow → GameSessionRow} (hid : ∀ g, (f g).id = g.id) {g : GameSessionRow}
    (hg : g ∈ db.gameSessions) : g ∈ db.gameSessions.map f ↔ f g = g := by
  constructor
  · intro h
    obtain ⟨g', hg', he⟩ := List.mem_map.mp h
    have hsame : g' = g := db.session_unique hg' hg (by rw [← hid g', he])
    rw [hsame] at he
    exact he
  · exact fun h => List.mem_map.mpr ⟨g, hg, h⟩

/-- A session is reconciled after its participants have changed: those that are left are the ones a predicate says. -/
structure Settles (now : Time) (typeId sessionId : Nat) (P : ParticipantRow → Prop) (db db' : Database) : Prop where
  participants : ∀ p, p ∈ db'.participants ↔ P p
  gameSessions : ∃ participants, (∀ v, v ∈ participants ↔ P { gameId := sessionId, userId := v }) ∧
    db'.gameSessions = db.gameSessions.map (·.reconciled now typeId sessionId participants)

/-- Reconciling a session after its participants have changed. -/
theorem wp_settles (db : Database) {db₁ : Database} {now : Time} {typeId sessionId : Nat} {P : ParticipantRow → Prop}
    (hsessions : db₁.gameSessions = db.gameSessions) (hparticipants : ∀ p, p ∈ db₁.participants ↔ P p) :
    wp (do let _ ← reconcileGameSession now typeId sessionId : StorageTx ρ PUnit)
      (fun _ db' => Settles now typeId sessionId P db db') (fun _ => False) db₁ := by
  rw [wp_bind]
  refine wp_mono (wp_reconcileGameSession now typeId sessionId) fun _ db' h =>
    ⟨fun p => ?_, db₁.participantIds sessionId, fun v => ?_, ?_⟩
  · rw [h]
    exact hparticipants p
  · rw [Tables.mem_participantIds]
    exact hparticipants _
  · rw [h, ← hsessions]

/-- When a reconciled session isolates a user. -/
theorem Settles.isolates_iff_host {now : Time} {typeId sessionId : Nat} {P : ParticipantRow → Prop}
    (h : Settles now typeId sessionId P db db') (hother : ∀ p, p.gameId ≠ sessionId → (P p ↔ p ∈ db.participants)) (userId : Nat) :
    db.Isolates userId db'.toTables ↔ ∀ g ∈ db.gameSessions, db.Foreign userId g → g.id = sessionId →
      (∀ v, P { gameId := sessionId, userId := v } ↔ { gameId := sessionId, userId := v } ∈ db.participants) ∧
        (g.typeId = typeId → g.destroyedAt = none → P { gameId := sessionId, userId := g.creatorId }) := by
  obtain ⟨participants, hids, hsessions⟩ := h.gameSessions
  have hstays : ∀ g ∈ db.gameSessions, g ∈ db'.gameSessions ↔
      (g.id = sessionId → g.typeId = typeId → g.destroyedAt = none → P { gameId := sessionId, userId := g.creatorId }) := by
    intro g hg
    rw [hsessions, mem_map_iff (fun g => GameSessionRow.reconciled_id g now typeId sessionId participants) hg, GameSessionRow.reconciled_eq_self]
    simp only [hids]
  constructor
  · rintro hisolates g hg hforeign rfl
    obtain ⟨hg', hp⟩ := hisolates g hg hforeign
    exact ⟨fun v => (h.participants _).symm.trans (hp v), (hstays g hg).mp hg' rfl⟩
  · intro hall g hg hforeign
    refine ⟨(hstays g hg).mpr fun hid => (hall g hg hforeign hid).2, fun v => ?_⟩
    rw [h.participants]
    by_cases hid : g.id = sessionId
    · rw [hid]
      exact (hall g hg hforeign hid).1 v
    · exact hother _ hid

/-! ## The operations that only touch what is the user's -/

/-- A database isolates a user from another one. -/
def Isolating (userId : Nat) (db db' : Database) : Prop := db.Isolates userId db'.toTables

instance (userId : Nat) : IsPreorder Database (Isolating userId) where
  refl db := Tables.isolates_refl userId db.toTables
  trans db db' db'' h h' g hg hforeign := by
    obtain ⟨hg', hp⟩ := h g hg hforeign
    obtain ⟨hg'', hp'⟩ := h' g hg' ⟨hforeign.1, fun hin => hforeign.2 ((hp userId).mp hin)⟩
    exact ⟨hg'', fun v => (hp' v).trans (hp v)⟩

/-- Statements on other tables isolate every user. -/
theorem moves_side {α : Type} {m : StorageTx ρ α} (hm : Moves (Executes SideStatement) m) (userId : Nat) :
    Moves (Isolating userId) m :=
  hm.mono fun db db' he g hg _ => by
    have hs := Executions.sameSessions_of_executes he
    rw [hs.gameSessions, hs.participants]
    exact ⟨hg, fun _ => Iff.rfl⟩

/-- An update of sessions isolates a user when it changes no session that is foreign to the user. -/
theorem isolating_updateGameSessions {userId : Nat} {p : GameSessionRow → Bool} {f : GameSessionRow → GameSessionRow}
    (h : ∀ g ∈ db.gameSessions, db.Foreign userId g → p g = false) (hdb : db'.toTables = db.updateGameSessions p f) :
    Isolating userId db db' := by
  intro g hg hforeign
  rw [hdb]
  refine ⟨List.mem_map.mpr ⟨g, hg, ?_⟩, fun v => Iff.rfl⟩
  rw [h g hg hforeign]
  rfl

/-- The insertion of a participant isolates a user when the session is not foreign to the user. -/
theorem isolating_insertParticipant {userId gameId participant : Nat}
    (h : ∀ g ∈ db.gameSessions, db.Foreign userId g → g.id ≠ gameId) (hdb : db'.toTables = db.insertParticipant gameId participant) :
    Isolating userId db db' := by
  intro g hg hforeign
  rw [hdb, Tables.gameSessions_insertParticipant]
  refine ⟨hg, fun v => ?_⟩
  rw [Tables.mem_insertParticipant_iff]
  refine or_iff_left fun he => h g hg hforeign ?_
  exact (ParticipantRow.mk.inj he).1

/-- The new session is new. -/
theorem isolating_createGameSession (now : Time) (userId typeId : Nat) (attributes : Text) (db : Database) :
    Isolating userId db (createGameSession now userId typeId attributes db).1 := by
  refine transaction_inv (I := Isolating userId db) (refl_of (Isolating userId) db) ?_
  rw [wp_bind, wp_query, wp_bind]
  refine wp_statement fun db₁ h₁ => ?_
  have hinsert : Isolating userId db db₁ := fun g hg _ => by
    rw [h₁]
    exact ⟨List.mem_append_left _ hg, fun _ => Iff.rfl⟩
  rw [wp_bind]
  refine wp_statement fun db₂ h₂ => ?_
  have hcreated : Isolating userId db db₂ := by
    refine trans_of (Isolating userId) hinsert (isolating_insertParticipant (fun g hg hforeign hid => ?_) h₂)
    rw [h₁] at hg
    rcases List.mem_append.mp hg with hg | hg
    · exact maxId_succ_notMem _ (List.mem_map.mpr ⟨g, hg, hid⟩)
    · rw [List.mem_singleton.mp hg] at hforeign
      exact hforeign.1 rfl
  rw [wp_bind]
  refine wp_mono (moves_side ?_ userId db₂) fun _ _ h => trans_of (Isolating userId) hcreated h
  split
  · exact Executions.moves_queuePartyFollowInvites _ _ _ _
  · exact Moves.pure _

/-- The deleted session is one of the user's own. -/
theorem isolating_deleteGameSession (now : Time) (userId typeId sessionId : Nat) (db : Database) :
    Isolating userId db (deleteGameSession now userId typeId sessionId db).1 := by
  refine Moves.transaction (Moves.bind (Moves.select _) fun found => ?_) db
  cases found with
  | none => exact Moves.rollback _
  | some session =>
    refine Moves.bind (moves_decodeText _) fun attributes => Moves.bind (Moves.select _) fun remaining =>
      Moves.bind (Moves.select _) fun deleted => Moves.bind (moves_statement_of fun db db' h => ?_) fun _ => ?_
    · exact isolating_updateGameSessions (fun g _ hforeign => decide_eq_false fun howned => hforeign.1 howned.1) h
    · split
      · exact Moves.pure _
      · refine Moves.bind (Moves.select _) fun candidates => ?_
        split
        · exact Moves.abort _
        · split
          · exact Moves.pure _
          · exact Moves.bind (moves_side (Executions.moves_ensurePartyForLeader userId) userId) fun partyId =>
              Moves.bind (moves_side (Moves.foldlM
                (Executions.moves_queueLobbyRestore now userId typeId _ partyId) _ _) userId) fun _ => Moves.pure _

/-- The session that passes to the user is one the user takes part in. -/
theorem isolating_migrateGameSessionHost (userId typeId sessionId : Nat) (db : Database) :
    Isolating userId db (migrateGameSessionHost userId typeId sessionId db).1 := by
  refine transaction_inv (I := Isolating userId db) (refl_of (Isolating userId) db) ?_
  rw [wp_bind, wp_query]
  split
  · rename_i hin
    rw [wp_bind, wp_query, wp_bind]
    refine wp_statement fun db₁ h₁ => ?_
    refine isolating_updateGameSessions (fun g _ hforeign => decide_eq_false fun hkey => hforeign.2 ?_) h₁
    rw [hkey.1]
    exact of_decide_eq_true (Bool.and_eq_true_iff.mp hin).2
  · trivial

/-- The restored session is one of the user's own. -/
theorem isolating_restoreAbandonedGameSessionForSplit (userId typeId sessionId : Nat) (db : Database) :
    Isolating userId db (restoreAbandonedGameSessionForSplit userId typeId sessionId db).1 := by
  refine transaction_inv (I := Isolating userId db) (refl_of (Isolating userId) db) ?_
  rw [wp_bind, wp_query, wp_bind]
  refine wp_statement fun db₁ h₁ => ?_
  have hrestored : Isolating userId db db₁ :=
    isolating_updateGameSessions (fun g _ hforeign => decide_eq_false fun howned => hforeign.1 howned.2.2.1) h₁
  split
  · trivial
  · rename_i haffected
    rw [wp_bind]
    refine wp_statement fun db₂ h₂ => ?_
    rw [wp_pure]
    refine trans_of (Isolating userId) hrestored (isolating_insertParticipant (fun g hg hforeign hid => ?_) h₂)
    -- a session was restored, the one with this id, which the user created
    have hsome : 0 < db.gameSessions.countP (fun g => decide (g.id = sessionId ∧ g.typeId = typeId ∧ g.creatorId = userId ∧
        g.destroyedAt ≠ none)) := by
      rw [not_not.mp haffected]
      exact Nat.one_pos
    obtain ⟨owned, howned, hkey⟩ := List.countP_pos_iff.mp hsome
    have hupdated : { owned with creatorId := userId, destroyedAt := none } ∈ db₁.gameSessions := by
      rw [h₁]
      exact List.mem_map.mpr ⟨owned, howned, by rw [if_pos hkey]⟩
    refine hforeign.1 ?_
    rw [db₁.session_unique hg hupdated (hid.trans (of_decide_eq_true hkey).1.symm)]

/-! ## The operations on the session with a key -/

/-- An update of the attributes isolates a user exactly when the sessions with the key that are foreign to the user have them
already. -/
theorem isolates_updateGameSession_iff (userId typeId gameId : Nat) (attributes : Text) (db : Database) :
    Isolating userId db (updateGameSession typeId gameId attributes db).1 ↔
      ∀ g ∈ db.gameSessions, db.Foreign userId g → g.id = gameId → g.typeId = typeId → g.attributes = some attributes := by
  refine transaction_of_wp (P := fun r : Database × Except StorageError Unit => Isolating userId db r.1 ↔ _) ?_
  refine wp_statement_ok (db.integrity.updateGameSessions _ (fun _ => rfl) fun g hg _ => db.references.creator g hg) fun db' h => ?_
  have hstays : ∀ g ∈ db.gameSessions, g ∈ db'.gameSessions ↔ (g.id = gameId → g.typeId = typeId → g.attributes = some attributes) := by
    intro g hg
    rw [h, Tables.updateGameSessions, mem_map_iff (fun g => by split <;> rfl) hg]
    split
    · rename_i hkey
      obtain ⟨hid, htype⟩ := of_decide_eq_true hkey
      refine ⟨fun he _ _ => (congrArg (·.attributes) he).symm, fun hattr => ?_⟩
      rw [← hattr hid htype]
    · rename_i hkey
      exact iff_of_true rfl fun hid htype => absurd (decide_eq_true ⟨hid, htype⟩) hkey
  constructor
  · exact fun hisolates g hg hforeign => (hstays g hg).mp (hisolates g hg hforeign).1
  · intro hall g hg hforeign
    refine ⟨(hstays g hg).mpr (hall g hg hforeign), fun v => ?_⟩
    rw [h]
    exact Iff.rfl

/-- A user leaves a session and thereby changes one that is foreign to the user exactly when that session has no host. -/
theorem isolates_leaveGameSession_iff (now : Time) (userId typeId sessionId : Nat) (db : Database) :
    Isolating userId db (leaveGameSession now userId typeId sessionId db).1 ↔
      ∀ g ∈ db.gameSessions, db.Foreign userId g → g.id = sessionId → g.typeId = typeId → g.destroyedAt = none →
        { gameId := g.id, userId := g.creatorId } ∈ db.participants := by
  refine transaction_of_wp (P := fun r : Database × Except StorageError Unit => Isolating userId db r.1 ↔ _) ?_
  rw [wp_bind]
  refine wp_statement_ok ((Tables.shrinks_deleteParticipants _ _).integrity db.integrity) fun db₁ h₁ => ?_
  have hparticipants : ∀ p, p ∈ db₁.participants ↔ p ∈ db.participants ∧
      ¬ (p.gameId = sessionId ∧ p.userId = userId ∧ (db.activeSession typeId sessionId).isSome) := by
    intro p
    rw [h₁, Tables.participants_deleteParticipants, List.mem_filter, Bool.not_eq_true', decide_eq_false_iff_not]
  refine wp_weaken (wp_settles db (by rw [h₁, Tables.gameSessions_deleteParticipants]) hparticipants) (fun _ db' h => ?_)
    (fun _ he => he.elim)
  unfold Isolating
  rw [h.isolates_iff_host fun p hp => and_iff_left fun hkey => hp hkey.1]
  refine forall₂_congr fun g hg => forall₂_congr fun hforeign hid => ?_
  subst hid
  constructor
  · intro h htype hactive
    exact (h.2 htype hactive).1
  · intro h
    constructor
    · intro v
      refine and_iff_left_of_imp fun hin hkey => hforeign.2 ?_
      rw [← hkey.2.1]
      exact hin
    · intro htype hactive
      exact ⟨h htype hactive, fun hkey => hforeign.1 hkey.2.1⟩

/-- The removal of participants isolates a user exactly when the sessions with the id that are foreign to the user lose no participant,
and the one of the type given has its host. -/
theorem isolates_removeParticipants_iff (now : Time) (userId typeId sessionId : Nat) (participants : List Nat) (db : Database) :
    Isolating userId db (removeParticipants now typeId sessionId participants db).1 ↔
      ∀ g ∈ db.gameSessions, db.Foreign userId g → g.id = sessionId →
        (∀ v ∈ participants, { gameId := g.id, userId := v } ∉ db.participants) ∧
          (g.typeId = typeId → g.destroyedAt = none → { gameId := g.id, userId := g.creatorId } ∈ db.participants) := by
  refine transaction_of_wp (P := fun r : Database × Except StorageError Unit => Isolating userId db r.1 ↔ _) ?_
  rw [wp_bind]
  refine wp_mono (wp_forM_done (fun done (db' : Database) => db'.gameSessions = db.gameSessions ∧
    ∀ p, p ∈ db'.participants ↔ p ∈ db.participants ∧ ¬ (p.gameId = sessionId ∧ p.userId ∈ done)) ?_ ⟨rfl, by simp⟩)
    fun _ db₁ h₁ => ?_
  · rintro done c - db' - ⟨hsessions, hleft⟩
    refine wp_statement_ok ((Tables.shrinks_deleteParticipants _ _).integrity db'.integrity) fun db₁ h₁ => ⟨?_, fun p => ?_⟩
    · rw [h₁, Tables.gameSessions_deleteParticipants, hsessions]
    · rw [h₁, Tables.participants_deleteParticipants, List.mem_filter, Bool.not_eq_true', decide_eq_false_iff_not, hleft, and_assoc,
        ← not_or, ← and_or_left, List.mem_append, List.mem_singleton]
  · refine wp_weaken (wp_settles db h₁.1 h₁.2) (fun _ db' h => ?_) (fun _ he => he.elim)
    unfold Isolating
    rw [h.isolates_iff_host fun p hp => and_iff_left fun hkey => hp hkey.1]
    refine forall₂_congr fun g hg => forall₂_congr fun _ hid => ?_
    subst hid
    simp only [List.mem_dedup]
    constructor
    · intro h
      constructor
      · intro v hv hin
        exact ((h.1 v).mpr hin).2 ⟨trivial, hv⟩
      · intro htype hactive
        exact (h.2 htype hactive).1
    · intro h
      constructor
      · intro v
        exact and_iff_left_of_imp fun hin hkey => h.1 v hkey.2 hin
      · intro htype hactive
        have hhost := h.2 htype hactive
        exact ⟨hhost, fun hkey => h.1 g.creatorId hkey.2 hhost⟩

/-- Participants were inserted: those that are there now are the ones a predicate says. -/
structure Grown (P : ParticipantRow → Prop) (db db' : Database) : Prop where
  gameSessions : db'.gameSessions = db.gameSessions
  users : db'.users = db.users
  invites : db'.invites = db.invites
  participants : ∀ p, p ∈ db'.participants ↔ P p

theorem Grown.hasUser_iff {P : ParticipantRow → Prop} (h : Grown P db db') (userId : Nat) : db'.HasUser userId ↔ db.HasUser userId := by
  unfold Tables.HasUser
  rw [h.users]

theorem Grown.congr {P P' : ParticipantRow → Prop} (h : Grown P db db') (hP : ∀ p, P p ↔ P' p) : Grown P' db db' :=
  ⟨h.gameSessions, h.users, h.invites, fun p => (h.participants p).trans (hP p)⟩

/-- The insertion of a participant fails at most when the user does not exist. -/
theorem wp_insertParticipant {P : ParticipantRow → Prop} {E : Abort StorageError ρ → Prop} (h : Grown P db db') {gameId userId : Nat}
    (hgame : gameId ∈ db.gameSessions.map (·.id)) (hE : ¬ db.HasUser userId → ∀ e, E e) :
    wp (statement (·.insertParticipant gameId userId) : StorageTx ρ Unit)
      (fun _ db'' => Grown (fun p => P p ∨ p = { gameId, userId }) db db'') E db' := by
  have hgrown : ∀ db'' : Database, db''.toTables = db'.insertParticipant gameId userId →
      Grown (fun p => P p ∨ p = { gameId, userId }) db db'' := by
    intro db'' h'
    constructor
    · rw [h', Tables.gameSessions_insertParticipant, h.gameSessions]
    · rw [h', Tables.users_insertParticipant, h.users]
    · rw [h', Tables.invites_insertParticipant, h.invites]
    · intro p
      rw [h', Tables.mem_insertParticipant_iff, h.participants]
  by_cases huser : db.HasUser userId
  · exact wp_statement_ok (db'.integrity.insertParticipant (h.gameSessions ▸ hgame) ((h.hasUser_iff userId).mpr huser)) hgrown
  · exact wp_weaken (wp_statement hgrown) (fun _ _ h => h) (fun e _ => hE huser e)

theorem participantRow_eq_iff {p : ParticipantRow} {gameId userId : Nat} :
    p = { gameId, userId } ↔ p.gameId = gameId ∧ p.userId = userId := by
  cases p
  simp

/-- The public participants are inserted. -/
theorem wp_insertPublic {E : Abort StorageError ρ → Prop} {sessionId : Nat} (hgame : sessionId ∈ db.gameSessions.map (·.id))
    {participants : List Nat} (hE : ∀ v ∈ participants, ¬ db.HasUser v → ∀ e, E e) :
    wp (participants.forM (fun userId => statement (·.insertParticipant sessionId userId)) : StorageTx ρ PUnit)
      (fun _ db' => Grown (fun p => p ∈ db.participants ∨ (p.gameId = sessionId ∧ p.userId ∈ participants)) db db') E db := by
  refine wp_forM_done (fun done (db' : Database) =>
    Grown (fun p => p ∈ db.participants ∨ (p.gameId = sessionId ∧ p.userId ∈ done)) db db') ?_ ⟨rfl, rfl, rfl, by simp⟩
  intro done c rest db' hl h
  have hc : c ∈ _ := hl ▸ List.mem_append_right done List.mem_cons_self
  refine wp_mono (wp_insertParticipant h hgame (hE c hc)) fun _ _ h' => h'.congr fun p => ?_
  rw [List.mem_append, List.mem_singleton, and_or_left, or_assoc, participantRow_eq_iff]

/-- A private participant is inserted, or left to a join. -/
theorem wp_addPrivateParticipant {E : Abort StorageError ρ → Prop} {now : Time} {callerId creatorId typeId sessionId userId : Nat}
    {P : ParticipantRow → Prop} (h : Grown P db db') (hgame : sessionId ∈ db.gameSessions.map (·.id))
    (hE : db.admitsPrivate now callerId typeId sessionId creatorId userId = true → ¬ db.HasUser userId → ∀ e, E e) :
    wp (addPrivateParticipant now callerId creatorId typeId sessionId userId : StorageTx ρ Unit)
      (fun _ db'' => Grown (fun p => P p ∨ (p.gameId = sessionId ∧ p.userId = userId ∧
        db.admitsPrivate now callerId typeId sessionId creatorId userId = true)) db db'') E db' := by
  have hpending : db'.pendingInviteSender now userId typeId sessionId = db.pendingInviteSender now userId typeId sessionId := by
    unfold Tables.pendingInviteSender
    rw [h.invites]
  have hinsert : ∀ {Q : Prop}, (Q → ¬ db.HasUser userId → ∀ e, E e) → Q →
      wp (statement (·.insertParticipant sessionId userId) : StorageTx ρ Unit)
        (fun _ db'' => Grown (fun p => P p ∨ (p.gameId = sessionId ∧ p.userId = userId ∧ Q)) db db'') E db' := by
    intro Q hE hQ
    refine wp_mono (wp_insertParticipant h hgame (hE hQ)) fun _ _ h' => h'.congr fun p => ?_
    rw [participantRow_eq_iff, and_iff_left hQ]
  unfold addPrivateParticipant
  rw [wp_bind, wp_query, wp_bind, wp_query, hpending]
  unfold Tables.admitsPrivate at hE ⊢
  cases hsender : db.pendingInviteSender now userId typeId sessionId with
  | none =>
    simp only [hsender] at hE ⊢
    exact hinsert hE trivial
  | some inviteSender =>
    simp only [hsender, decide_eq_true_eq] at hE ⊢
    cases hjoined : db'.isParticipant sessionId userId with
    | false =>
      simp only []
      split
      · rename_i hhost
        exact hinsert hE hhost
      · rename_i hhost
        refine h.congr fun p => (or_iff_left ?_).symm
        rintro ⟨-, -, hadmits⟩
        exact hhost hadmits
    | true =>
      -- the participant is there already
      have hin : P { gameId := sessionId, userId } := (h.participants _).mp (of_decide_eq_true hjoined)
      have huser : db.HasUser userId := (h.hasUser_iff userId).mp (db'.references.participantUser _ (of_decide_eq_true hjoined))
      simp only []
      refine wp_mono (wp_insertParticipant h hgame fun hno => absurd huser hno) fun _ _ h' => h'.congr fun p => ?_
      constructor
      · rintro (hp | rfl)
        · exact .inl hp
        · exact .inl hin
      · rintro (hp | ⟨hgame, hu, -⟩)
        · exact .inl hp
        · exact .inr (participantRow_eq_iff.mpr ⟨hgame, hu⟩)

/-- An addition of participants is carried out when all the users it inserts exist, and not otherwise. -/
theorem wp_addParticipants {now : Time} {callerId typeId sessionId creatorId : Nat} {privateParticipants publicParticipants : List Nat}
    (hgame : sessionId ∈ db.gameSessions.map (·.id)) :
    let admitted := db.admitted now callerId typeId sessionId creatorId privateParticipants publicParticipants
    wp (do
      publicParticipants.dedup.forM (fun userId => statement (·.insertParticipant sessionId userId))
      privateParticipants.dedup.forM (addPrivateParticipant now callerId creatorId typeId sessionId)
      let _ ← reconcileGameSession now typeId sessionId : StorageTx ρ PUnit)
      (fun _ db' => (∀ v ∈ admitted, db.HasUser v) ∧
        Settles now typeId sessionId (fun p => p ∈ db.participants ∨ (p.gameId = sessionId ∧ p.userId ∈ admitted)) db db')
      (fun _ => ∃ v ∈ admitted, ¬ db.HasUser v) db := by
  intro admitted
  have hadmitted : ∀ v, v ∈ admitted ↔ v ∈ publicParticipants ∨
      (v ∈ privateParticipants ∧ db.admitsPrivate now callerId typeId sessionId creatorId v = true) := by
    intro v
    rw [← List.mem_filter]
    exact List.mem_append
  rw [wp_bind]
  refine wp_mono (wp_insertPublic hgame fun v hv hno _ => ⟨v, (hadmitted v).mpr (.inl (List.mem_dedup.mp hv)), hno⟩)
    fun _ db₁ h₁ => ?_
  rw [wp_bind]
  refine wp_mono (wp_forM_done (fun done (db' : Database) => Grown (fun p => (p ∈ db.participants ∨ (p.gameId = sessionId ∧
    p.userId ∈ publicParticipants.dedup)) ∨ (p.gameId = sessionId ∧ p.userId ∈ done ∧
      db.admitsPrivate now callerId typeId sessionId creatorId p.userId = true)) db db') ?_ (h₁.congr (by simp)))
    fun _ db₂ h₂ => ?_
  · intro done c rest db' hl h
    have hc : c ∈ privateParticipants.dedup := hl ▸ List.mem_append_right done List.mem_cons_self
    refine wp_mono (wp_addPrivateParticipant h hgame fun hin hno _ =>
      ⟨c, (hadmitted c).mpr (.inr ⟨List.mem_dedup.mp hc, hin⟩), hno⟩) fun _ _ h' => h'.congr fun p => ?_
    rw [or_assoc, ← and_or_left, List.mem_append, List.mem_singleton]
    refine or_congr_right (and_congr_right fun _ => ?_)
    rw [or_and_right]
    refine or_congr_right (and_congr_right fun he => ?_)
    rw [he]
  · have hparticipants : ∀ p, p ∈ db₂.participants ↔ p ∈ db.participants ∨ (p.gameId = sessionId ∧ p.userId ∈ admitted) := by
      intro p
      rw [h₂.participants, hadmitted, or_assoc, ← and_or_left, List.mem_dedup, List.mem_dedup]
    refine wp_weaken (wp_settles db h₂.gameSessions hparticipants) (fun _ db' h => ⟨fun v hv => ?_, h⟩) (fun _ he => he.elim)
    have hin := (hparticipants { gameId := sessionId, userId := v }).mpr (.inr ⟨rfl, hv⟩)
    exact (h₂.hasUser_iff v).mp (db₂.references.participantUser _ hin)

/-- The addition of participants isolates a user exactly when nothing is asked for, when a user it would insert does not exist, or
when the active session with the key, if it is foreign to the user, has all of them and its host already. -/
theorem isolates_addParticipants_iff (now : Time) (userId typeId sessionId : Nat) (privateParticipants publicParticipants : List Nat)
    (db : Database) :
    Isolating userId db (addParticipants now userId typeId sessionId privateParticipants publicParticipants db).1 ↔
      ∀ g ∈ db.gameSessions, db.Foreign userId g → g.id = sessionId → g.typeId = typeId → g.destroyedAt = none →
        (privateParticipants = [] ∧ publicParticipants = []) ∨
          (∃ v ∈ db.admitted now userId typeId sessionId g.creatorId privateParticipants publicParticipants, ¬ db.HasUser v) ∨
          ((∀ v ∈ db.admitted now userId typeId sessionId g.creatorId privateParticipants publicParticipants,
              { gameId := g.id, userId := v } ∈ db.participants) ∧
            { gameId := g.id, userId := g.creatorId } ∈ db.participants) := by
  refine transaction_of_wp (P := fun r : Database × Except StorageError Unit => Isolating userId db r.1 ↔ _) ?_
  split
  · rename_i hempty
    exact iff_of_true (refl_of (Isolating userId) db) fun _ _ _ _ _ _ => .inl hempty
  · rename_i hsome
    rw [wp_bind, wp_query]
    cases hs : db.activeSession typeId sessionId with
    | none =>
      refine iff_of_true (refl_of (Isolating userId) db) fun g hg _ hid htype hactive => ?_
      exact absurd (by rw [hid, htype]) (Tables.activeSession_eq_none hs hg hactive)
    | some session =>
      obtain ⟨hmem, rfl, rfl, hactive⟩ := Tables.activeSession_eq_some hs
      have hsession : ∀ g ∈ db.gameSessions, g.id = session.id → g = session := fun g hg hid => db.session_unique hg hmem hid
      refine wp_weaken (wp_addParticipants (List.mem_map_of_mem hmem)) (fun _ db' h => ?_) (fun e he => ?_)
      · obtain ⟨hall, h⟩ := h
        unfold Isolating
        rw [h.isolates_iff_host (fun p hp => or_iff_left fun hkey => hp hkey.1)]
        refine forall₂_congr fun g hg => forall₂_congr fun _ hid => ?_
        obtain rfl := hsession g hg hid
        constructor
        · intro h _ _
          right
          right
          constructor
          · intro v hv
            exact (h.1 v).mp (.inr ⟨rfl, hv⟩)
          · exact (h.1 g.creatorId).mp (h.2 rfl hactive)
        · intro h
          rcases h rfl hactive with hempty | ⟨v, hv, hno⟩ | ⟨hin, hhost⟩
          · exact absurd hempty hsome
          · exact absurd (hall v hv) hno
          · exact ⟨fun v => or_iff_left_of_imp fun hkey => hin v hkey.2, fun _ _ => .inl hhost⟩
      · have hno : ∀ g ∈ db.gameSessions, g.id = session.id → ∃ v ∈ db.admitted now userId session.typeId session.id g.creatorId
            privateParticipants publicParticipants, ¬ db.HasUser v := by
          intro g hg hid
          rw [hsession g hg hid]
          exact he
        cases e <;> exact iff_of_true (refl_of (Isolating userId) db) fun g hg _ hid _ _ => .inr (.inl (hno g hg hid))

end Isolation

end Scbl.Storage
