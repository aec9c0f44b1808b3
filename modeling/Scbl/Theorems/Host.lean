import Scbl.Lemmas.Executions
import Scbl.Lemmas.Sessions

/-!
# Every active session has its host

Whether the creator of every active session is one of its participants, over runs of all operations of the store. One call breaks
it: `remove_participants` deletes participants by the id of a session whatever its type, and reconciles the session of that id and
of the type given, so that the creator of a session of another type is removed and nobody notices. Every other call keeps it.
-/

namespace Scbl.Storage

open Scbl.Lib

/-- The call removes the creator of an active session under another type. -/
def StorageOp.StrandsSession (db : Database) : StorageOp → Prop
  | .removeParticipants typeId sessionId participants =>
    ∃ g ∈ db.gameSessions, g.id = sessionId ∧ g.typeId ≠ typeId ∧ g.destroyedAt = none ∧ g.creatorId ∈ participants
  | _ => False

instance (db : Database) (op : StorageOp) : Decidable (op.StrandsSession db) :=
  match op with
  | .removeParticipants typeId sessionId participants =>
    inferInstanceAs (Decidable (∃ g ∈ db.gameSessions,
      g.id = sessionId ∧ g.typeId ≠ typeId ∧ g.destroyedAt = none ∧ g.creatorId ∈ participants))
  | .loginUser .. | .touchApiPresence _ | .registerUser .. | .createUserSession .. | .deleteUser _ | .registerUrls ..
  | .deleteUserSession _ | .closeSecureSession _ | .cleanupStaleApiSessions | .invalidateSessions | .createGameSession ..
  | .joinGameSessionUnbounded .. | .leaveGameSession .. | .migrateGameSessionHost .. | .restoreAbandonedGameSessionForSplit ..
  | .updateGameSession .. | .addParticipants .. | .deleteGameSession .. | .deleteGameSessionById _ | .addInvite .. | .takeInvite _
  | .acceptInvite .. => .isFalse id

namespace Host

open Executions

section

variable {ρ : Type} {db : Database} {keys : List (Nat × Nat)}

/-- Statements on other tables in a transaction. -/
theorem wp_side {α : Type} {m : StorageTx ρ α} (hm : Moves (Executes SideStatement) m) (h : db.HostedExcept keys) :
    wp m (fun _ db' => db'.HostedExcept keys) (fun _ => True) db :=
  wp_mono (hm db) (fun _ _ hs => h.same (sameSessions_of_executes hs))

/-- Inserting a participant keeps the hosts. -/
theorem wp_insert (h : db.Hosted) (gameId userId : Nat) :
    wp (statement (·.insertParticipant gameId userId) : StorageTx ρ Unit) (fun _ db' => db'.Hosted) (fun _ => True) db := by
  refine wp_statement fun db' hdb' => ?_
  rw [hdb']
  exact Tables.hostedExcept_nil.mp ((h.except []).insertParticipant gameId userId)

/-- Statements on other tables keep the hosts. -/
theorem hosted_of_executes {db' : Database} (he : Executes SideStatement db db') (h : db.Hosted) : db'.Hosted :=
  Tables.hostedExcept_nil.mp ((h.except []).same (sameSessions_of_executes he))

/-- Deleting participants in a transaction, when the sessions that are not listed keep their creators. -/
theorem wp_deleteParticipants (keys' : List (Nat × Nat)) {p : ParticipantRow → Bool} (h : db.HostedExcept keys)
    (hp : ∀ g ∈ db.gameSessions, g.destroyedAt = none → (g.typeId, g.id) ∉ keys' →
      (g.typeId, g.id) ∉ keys ∧ p { gameId := g.id, userId := g.creatorId } = false) {f : Tables → Tables}
    (hf : f db.toTables = db.deleteParticipants p) :
    wp (statement f : StorageTx ρ Unit) (fun _ db' => db'.HostedExcept keys') (fun _ => True) db := by
  refine wp_statement fun db' hdb' => ?_
  rw [hdb', hf]
  intro g hg ha hk
  rw [Tables.gameSessions_deleteParticipants] at hg
  obtain ⟨hk', hp⟩ := hp g hg ha hk
  rw [Tables.participants_deleteParticipants]
  exact List.mem_filter.mpr ⟨h g hg ha hk', by rw [hp]; rfl⟩

/-- Reconciling sessions one after the other. -/
theorem wp_reconcileAll (now : Time) (h : db.HostedExcept keys) :
    wp (keys.forM (fun (typeId, sessionId) => do let _ ← reconcileGameSession now typeId sessionId) : StorageTx ρ PUnit)
      (fun _ db' => db'.Hosted) (fun _ => True) db := by
  refine wp_mono (wp_forM (fun keys db => db.HostedExcept keys) ?_ h) (fun _ _ h' => Tables.hostedExcept_nil.mp h')
  intro key keys db hkeys
  rw [wp_bind]
  exact wp_mono (wp_reconcileGameSession_hosted now hkeys) (fun _ _ h' => h')

/-- Cleaning up after a user. -/
theorem wp_cleanupUserGameState (now : Time) (userId : Nat) (h : db.Hosted) :
    wp (cleanupUserGameState now userId : StorageTx ρ Unit) (fun _ db' => db'.Hosted) (fun _ => True) db := by
  unfold cleanupUserGameState
  rw [wp_bind, wp_query, wp_bind]
  -- a session that is not among the affected ones was not created by the user
  have hcreator : ∀ g ∈ db.gameSessions, g.destroyedAt = none → (g.typeId, g.id) ∉ db.affectedSessions userId →
      g.creatorId ≠ userId := by
    intro g hg ha hk he
    refine hk (List.mem_map.mpr ⟨g, List.mem_filter.mpr ⟨hg, ?_⟩, rfl⟩)
    exact decide_eq_true ⟨ha, .inl he⟩
  generalize db.affectedSessions userId = keys at hcreator
  have hside : ∀ db', Executes SideStatement db db' → db'.Hosted ∧ ∀ g ∈ db'.gameSessions, g.destroyedAt = none →
      (g.typeId, g.id) ∉ keys → g.creatorId ≠ userId := by
    intro db' he
    refine ⟨hosted_of_executes he h, ?_⟩
    rw [(sameSessions_of_executes he).gameSessions]
    exact hcreator
  refine wp_mono (moves_party (W := SideStatement) (.deleteParties _) db) fun _ db₁ h₁ => ?_
  rw [wp_bind]
  refine wp_mono (moves_party (W := SideStatement) (.deletePartyMembers _) db₁) fun _ db₂ h₂ => ?_
  obtain ⟨hhosted, hcreator₂⟩ := hside db₂ (trans_of (Executes SideStatement) h₁ h₂)
  rw [wp_bind]
  refine wp_mono (wp_deleteParticipants keys (hhosted.except []) ?_ rfl) fun _ db₃ h₃ => ?_
  · exact fun g hg ha hk => ⟨List.not_mem_nil, decide_eq_false (hcreator₂ g hg ha hk)⟩
  rw [wp_bind]
  refine wp_mono (wp_side (moves_statement (.deleteStationUrls _)) h₃) fun _ db₄ h₄ => ?_
  rw [wp_bind]
  refine wp_mono (wp_side (moves_statement (.deleteUserSessions _)) h₄) fun _ db₅ h₅ => ?_
  rw [wp_bind]
  refine wp_mono (wp_side (moves_statement (.updateUsers _ _)) h₅) fun _ db₆ h₆ => ?_
  exact wp_reconcileAll now h₆

/-- A transaction whose commit keeps the hosts keeps them. -/
theorem hosted_transaction {m : StorageTx ρ ρ} (h : db.Hosted) (hw : wp m (fun _ db' => db'.Hosted) (fun _ => True) db) :
    (transaction m db).1.Hosted :=
  transaction_inv (I := fun db : Database => db.Hosted) h hw

/-- Statements on other tables keep the hosts in a transaction. -/
theorem wp_of_moves {α : Type} {m : StorageTx ρ α} (hm : Moves (Executes SideStatement) m) (h : db.Hosted) :
    wp m (fun _ db' => db'.Hosted) (fun _ => True) db :=
  wp_mono (hm db) (fun _ _ he => hosted_of_executes he h)

/-- Reconciling a session keeps the hosts. -/
theorem wp_reconcile (now : Time) (typeId sessionId : Nat) (h : db.HostedExcept [(typeId, sessionId)]) :
    wp (do let _ ← reconcileGameSession now typeId sessionId : StorageTx ρ PUnit) (fun _ db' => db'.Hosted)
      (fun _ => True) db := by
  rw [wp_bind]
  exact wp_mono (wp_reconcileGameSession_hosted now h) (fun _ _ h' => Tables.hostedExcept_nil.mp h')

/-! ## The operations -/

variable (now : Time) (h : db.Hosted)

include h

/-- Deleting a user deletes the sessions the user created and the user's own rows only. -/
theorem hosted_deleteUser (userId : Nat) : (deleteUser userId db).1.Hosted := by
  refine hosted_transaction h (wp_statement fun db' hdb' => ?_)
  rw [hdb']
  intro g hg ha
  obtain ⟨hg, hne⟩ := List.mem_filter.mp hg
  have hne : g.creatorId ≠ userId := of_decide_eq_true hne
  refine List.mem_filter.mpr ⟨h g hg ha, ?_⟩
  simp only [Bool.and_eq_true, decide_eq_true_eq, Bool.not_eq_true', List.any_eq_false, beq_iff_eq, not_and]
  refine ⟨hne, fun g' hg' hc hid => hne ?_⟩
  rw [← db.session_unique hg' hg hid]
  exact hc

theorem hosted_deleteUserSession (userId : Nat) : (deleteUserSession now userId db).1.Hosted :=
  hosted_transaction h (wp_cleanupUserGameState now userId h)

theorem hosted_closeSecureSession (userId : Nat) : (closeSecureSession now userId db).1.Hosted := by
  refine hosted_transaction h ?_
  rw [wp_bind, wp_query, wp_bind]
  refine wp_mono (wp_of_moves (moves_statement (.deleteUserSessions _)) h) fun _ db₁ h₁ => ?_
  rw [wp_bind]
  refine wp_mono (wp_of_moves (moves_statement (.updateUsers _ _)) h₁) fun _ db₂ h₂ => ?_
  split
  · exact h₂
  · rw [wp_bind]
    exact wp_cleanupUserGameState now userId h₂

theorem hosted_cleanupStaleApiSessions : (cleanupStaleApiSessions now db).1.Hosted := by
  refine hosted_transaction h ?_
  rw [wp_bind, wp_query]
  exact wp_forM (fun _ (db : Database) => db.Hosted) (fun userId _ _ h' => wp_cleanupUserGameState now userId h') h

/-- Invalidating the sessions destroys them all. -/
theorem hosted_invalidateSessions : (invalidateSessions now db).1.Hosted := by
  refine hosted_transaction h ?_
  rw [wp_bind]
  refine wp_mono (wp_of_moves (moves_party (.deleteParties _)) h) fun _ db₁ h₁ => ?_
  rw [wp_bind]
  refine wp_mono (wp_of_moves (moves_party (.deletePartyMembers _)) h₁) fun _ db₂ h₂ => ?_
  rw [wp_bind]
  refine wp_mono (wp_of_moves (moves_statement (.deleteStationUrls _)) h₂) fun _ db₃ h₃ => ?_
  rw [wp_bind]
  refine wp_mono (wp_of_moves (moves_statement (.deleteUserSessions _)) h₃) fun _ db₄ h₄ => ?_
  rw [wp_bind]
  refine wp_statement fun db₅ h₅ => ?_
  refine wp_of_moves (moves_statement (.updateUsers _ _)) (Tables.hostedExcept_nil.mp ?_)
  rw [h₅]
  exact Tables.hostedExcept_updateGameSessions (fun g hg _ ha _ => h₄ g hg ha) (fun _ _ _ ha => nomatch ha)

/-- The new session has its creator as a participant. -/
theorem hosted_createGameSession (userId typeId : Nat) (attributes : Text) :
    (createGameSession now userId typeId attributes db).1.Hosted := by
  refine hosted_transaction h ?_
  rw [wp_bind, wp_query, wp_bind]
  refine wp_statement fun db₁ h₁ => ?_
  rw [wp_bind]
  refine wp_statement fun db₂ h₂ => ?_
  rw [h₁] at h₂
  have hosted : db₂.Hosted := by
    rw [h₂]
    intro g hg ha
    rw [Tables.gameSessions_insertParticipant] at hg
    rcases List.mem_append.mp hg with hg | hg
    · exact Tables.subset_insertParticipant _ _ _ (h g hg ha)
    · rw [List.mem_singleton.mp hg]
      exact Tables.mem_insertParticipant _ _ _
  rw [wp_bind]
  refine wp_mono (wp_of_moves ?_ hosted) fun _ _ h' => h'
  split
  · exact moves_queuePartyFollowInvites _ _ _ _
  · exact Moves.pure _

theorem hosted_joinGameSessionUnbounded (userId typeId sessionId : Nat) :
    (joinGameSessionUnbounded now userId typeId sessionId db).1.Hosted := by
  refine hosted_transaction h ?_
  rw [wp_bind, wp_query]
  cases db.activeSession typeId sessionId with
  | none => trivial
  | some session =>
    simp only [wp_bind]
    cases session.attributes with
    | none => trivial
    | some attributes =>
      rw [decodeText, wp_pure, wp_bind]
      refine wp_mono (wp_insert h sessionId userId) fun _ db₁ h₁ => ?_
      rw [wp_bind]
      refine wp_mono (wp_of_moves (moves_joinInvitingParty now userId typeId sessionId) h₁) fun _ db₂ h₂ => ?_
      rw [wp_bind]
      refine wp_mono (wp_of_moves (moves_party (.updateInvites (fun _ => _) _ fun _ => ⟨rfl, rfl, rfl⟩)) h₂) fun _ db₃ h₃ => ?_
      rw [wp_bind]
      refine wp_mono (wp_of_moves ?_ h₃) fun _ _ h' => h'
      split
      · exact moves_queuePartyFollowInvites _ _ _ _
      · exact Moves.pure _

theorem hosted_leaveGameSession (userId typeId sessionId : Nat) : (leaveGameSession now userId typeId sessionId db).1.Hosted := by
  refine hosted_transaction h ?_
  rw [wp_bind]
  refine wp_mono (wp_deleteParticipants [(typeId, sessionId)] (h.except []) ?_ rfl) fun _ db₁ h₁ =>
    wp_reconcile now typeId sessionId h₁
  intro g hg ha hk
  refine ⟨List.not_mem_nil, decide_eq_false ?_⟩
  -- nothing is deleted unless the session has the type given
  rintro ⟨rfl, -, hsome⟩
  obtain ⟨g', hg'⟩ := Option.isSome_iff_exists.mp hsome
  obtain ⟨hmem, hid, htype, -⟩ := Tables.activeSession_eq_some hg'
  rw [db.session_unique hmem hg hid] at htype
  exact hk (List.mem_singleton.mpr (by rw [htype]))

/-- The new host takes part in the session. -/
theorem hosted_migrateGameSessionHost (userId typeId sessionId : Nat) :
    (migrateGameSessionHost userId typeId sessionId db).1.Hosted := by
  refine hosted_transaction h ?_
  rw [wp_bind, wp_query]
  split
  · rename_i hin
    obtain ⟨-, hin⟩ := Bool.and_eq_true_iff.mp hin
    have hin : { gameId := sessionId, userId } ∈ db.participants := of_decide_eq_true hin
    rw [wp_bind, wp_query, wp_bind]
    refine wp_statement fun db₁ h₁ => ?_
    rw [wp_pure, h₁]
    refine Tables.hostedExcept_nil.mp (Tables.hostedExcept_updateGameSessions (fun g hg _ ha _ => h g hg ha) ?_)
    intro g _ hg _ _
    rw [show g.id = sessionId from (of_decide_eq_true hg).1]
    exact hin
  · trivial

/-- The restored session has its creator as a participant. -/
theorem hosted_restoreAbandonedGameSessionForSplit (userId typeId sessionId : Nat) :
    (restoreAbandonedGameSessionForSplit userId typeId sessionId db).1.Hosted := by
  refine hosted_transaction h ?_
  rw [wp_bind, wp_query, wp_bind]
  refine wp_statement fun db₁ h₁ => ?_
  split
  · trivial
  · rw [wp_bind]
    refine wp_statement fun db₂ h₂ => ?_
    rw [wp_pure, h₂, h₁]
    intro g' hg' ha
    rw [Tables.gameSessions_insertParticipant] at hg'
    obtain ⟨g, hg, rfl⟩ := List.mem_map.mp hg'
    split at ha
    · rename_i hp
      rw [if_pos hp, show g.id = sessionId from (of_decide_eq_true hp).1]
      exact Tables.mem_insertParticipant _ _ _
    · rename_i hp
      rw [if_neg hp]
      exact Tables.subset_insertParticipant _ _ _ (h g hg ha)

theorem hosted_updateGameSession (typeId gameId : Nat) (attributes : Text) :
    (updateGameSession typeId gameId attributes db).1.Hosted := by
  refine hosted_transaction h (wp_statement fun db₁ h₁ => ?_)
  rw [h₁]
  exact Tables.hostedExcept_nil.mp
    (Tables.hostedExcept_updateGameSessions (fun g hg _ ha _ => h g hg ha) (fun g hg _ ha _ => h g hg ha))

theorem hosted_addParticipants (callerId typeId sessionId : Nat) (privateParticipants publicParticipants : List Nat) :
    (addParticipants now callerId typeId sessionId privateParticipants publicParticipants db).1.Hosted := by
  refine hosted_transaction h ?_
  split
  · exact h
  · rw [wp_bind, wp_query]
    cases db.activeSession typeId sessionId with
    | none => trivial
    | some session =>
      simp only []
      rw [wp_bind]
      refine wp_mono (wp_forM (fun _ (db : Database) => db.Hosted) (fun userId _ _ h' => wp_insert h' sessionId userId) h)
        fun _ db₁ h₁ => ?_
      rw [wp_bind]
      refine wp_mono (wp_forM (fun _ (db : Database) => db.Hosted) (fun userId _ _ h' => ?_) h₁) fun _ db₂ h₂ =>
        wp_reconcile now typeId sessionId (h₂.except _)
      unfold addPrivateParticipant
      rw [wp_bind, wp_query, wp_bind, wp_query]
      split
      · split
        · exact wp_insert h' sessionId userId
        · exact h'
      · exact wp_insert h' sessionId userId

theorem hosted_deleteGameSession (creatorId typeId sessionId : Nat) :
    (deleteGameSession now creatorId typeId sessionId db).1.Hosted := by
  refine hosted_transaction h ?_
  rw [wp_bind, wp_query]
  split
  · trivial
  · rename_i session _
    rw [wp_bind]
    cases session.attributes with
    | none => trivial
    | some deletedAttributes =>
      simp only [decodeText, wp_pure, wp_bind, wp_query]
      refine wp_statement fun db₁ h₁ => ?_
      have h₁ : db₁.Hosted := by
        rw [h₁]
        exact Tables.hostedExcept_nil.mp
          (Tables.hostedExcept_updateGameSessions (fun g hg _ ha _ => h g hg ha) (fun _ _ _ ha => by cases ha))
      split
      · exact h₁
      · rw [wp_bind, wp_query]
        split
        · trivial
        · split
          · exact h₁
          · rw [wp_bind]
            refine wp_mono (wp_of_moves (moves_ensurePartyForLeader creatorId) h₁) fun partyId db₂ h₂ => ?_
            rw [wp_bind]
            exact wp_mono (wp_of_moves (Moves.foldlM (moves_queueLobbyRestore now creatorId typeId _ partyId) _ _) h₂)
              fun _ _ h' => h'

/-- The deleted session is no longer active. -/
theorem hosted_deleteGameSessionById (sessionId : Nat) : (deleteGameSessionById now sessionId db).1.Hosted := by
  refine hosted_transaction h (wp_statement fun db₁ h₁ => ?_)
  rw [h₁]
  exact Tables.hostedExcept_nil.mp
    (Tables.hostedExcept_updateGameSessions (fun g hg _ ha _ => h g hg ha) (fun _ _ _ ha => nomatch ha))

/-- Removing participants keeps the hosts, unless a session of another type loses its creator. -/
theorem hosted_removeParticipants (typeId sessionId : Nat) (participants : List Nat)
    (hs : ¬ (StorageOp.removeParticipants typeId sessionId participants).StrandsSession db) :
    (removeParticipants now typeId sessionId participants db).1.Hosted := by
  refine hosted_transaction h ?_
  rw [wp_bind]
  have hstart : (∀ c ∈ participants.dedup, c ∈ participants) ∧ db.gameSessions = db.gameSessions ∧
      db.HostedExcept [(typeId, sessionId)] :=
    ⟨fun c hc => List.mem_dedup.mp hc, rfl, h.except _⟩
  refine wp_mono (wp_forM (fun rest (db' : Database) => (∀ c ∈ rest, c ∈ participants) ∧ db'.gameSessions = db.gameSessions ∧
    db'.HostedExcept [(typeId, sessionId)]) ?_ hstart) fun _ db₁ h₁ => wp_reconcile now typeId sessionId h₁.2.2
  rintro c rest db' ⟨hrest, hsessions, hhosted⟩
  refine wp_statement fun db₁ h₁ => ⟨fun c' hc' => hrest c' (List.mem_cons_of_mem _ hc'), ?_, ?_⟩
  · rw [h₁, Tables.gameSessions_deleteParticipants, hsessions]
  · rw [h₁]
    intro g hg ha hk
    rw [Tables.gameSessions_deleteParticipants] at hg
    rw [Tables.participants_deleteParticipants]
    refine List.mem_filter.mpr ⟨hhosted g hg ha hk, ?_⟩
    rw [Bool.not_eq_true', decide_eq_false_iff_not]
    rintro ⟨rfl, rfl⟩
    refine hs ⟨g, hsessions ▸ hg, rfl, fun ht => hk (List.mem_singleton.mpr (by rw [ht])), ha, ?_⟩
    exact hrest _ List.mem_cons_self

end

/-- Every call keeps the hosts, unless it removes the creator of a session of another type. -/
theorem hosted_step (argon2 : Argon2) {db : Database} {call : Call} (h : db.Hosted) (hs : ¬ call.op.StrandsSession db) :
    (step argon2 db call).1.Hosted := by
  obtain ⟨now, op⟩ := call
  cases op with
  | loginUser username password => exact hosted_of_executes (executes_loginUser db argon2 username password) h
  | touchApiPresence userId => exact hosted_of_executes (executes_touchApiPresence db now userId) h
  | registerUser username passwordHash ubiId => exact hosted_of_executes (executes_registerUserUnsafe db username passwordHash ubiId) h
  | createUserSession userId key => exact hosted_of_executes (executes_createUserSession db userId key) h
  | deleteUser userId => exact hosted_deleteUser h userId
  | registerUrls userId urls => exact hosted_of_executes (executes_registerUrls db userId urls) h
  | deleteUserSession userId => exact hosted_deleteUserSession now h userId
  | closeSecureSession userId => exact hosted_closeSecureSession now h userId
  | cleanupStaleApiSessions => exact hosted_cleanupStaleApiSessions now h
  | invalidateSessions => exact hosted_invalidateSessions now h
  | createGameSession userId typeId attributes => exact hosted_createGameSession now h userId typeId attributes
  | joinGameSessionUnbounded userId typeId sessionId => exact hosted_joinGameSessionUnbounded now h userId typeId sessionId
  | leaveGameSession userId typeId sessionId => exact hosted_leaveGameSession now h userId typeId sessionId
  | migrateGameSessionHost userId typeId sessionId => exact hosted_migrateGameSessionHost h userId typeId sessionId
  | restoreAbandonedGameSessionForSplit userId typeId sessionId =>
    exact hosted_restoreAbandonedGameSessionForSplit h userId typeId sessionId
  | updateGameSession typeId gameId attributes => exact hosted_updateGameSession h typeId gameId attributes
  | addParticipants callerId typeId sessionId privateParticipants publicParticipants =>
    exact hosted_addParticipants now h callerId typeId sessionId privateParticipants publicParticipants
  | removeParticipants typeId sessionId participants => exact hosted_removeParticipants now h typeId sessionId participants hs
  | deleteGameSession creatorId typeId sessionId => exact hosted_deleteGameSession now h creatorId typeId sessionId
  | deleteGameSessionById sessionId => exact hosted_deleteGameSessionById now h sessionId
  | addInvite senderId receiverId kind sessionType sessionId =>
    exact hosted_of_executes (executes_addInvite db now senderId receiverId kind sessionType sessionId) h
  | takeInvite userId => exact hosted_of_executes (executes_takeInvite db now userId) h
  | acceptInvite userId inviteId => exact hosted_of_executes (executes_acceptInvite db now userId inviteId) h

/-- A call that removes the creator of a session of another type leaves that session active without its host. -/
theorem not_hosted_of_strands (argon2 : Argon2) {db : Database} {call : Call} (hs : call.op.StrandsSession db) :
    ¬ (step argon2 db call).1.Hosted := by
  obtain ⟨now, op⟩ := call
  cases op with
  | removeParticipants typeId sessionId participants =>
    obtain ⟨g, hg, rfl, htype, ha, hc⟩ := hs
    refine transaction_of_wp (P := fun r : Database × Except StorageError Unit => ¬ r.1.Hosted) ?_
    rw [wp_bind]
    refine wp_mono (wp_forM
      (fun rest (db' : Database) => db'.gameSessions = db.gameSessions ∧
        ∀ c ∈ participants, c ∉ rest → { gameId := g.id, userId := c } ∉ db'.participants) ?_
      ⟨rfl, fun c hc hn => absurd (List.mem_dedup.mpr hc) hn⟩) ?_
    · rintro c rest db' ⟨hsessions, hgone⟩
      refine wp_statement_ok ((Tables.shrinks_deleteParticipants _ _).integrity db'.integrity) fun db₁ h₁ => ?_
      rw [h₁]
      refine ⟨by rw [Tables.gameSessions_deleteParticipants, hsessions], fun c' hc' hn hm => ?_⟩
      rw [Tables.participants_deleteParticipants] at hm
      obtain ⟨hm, hkept⟩ := List.mem_filter.mp hm
      by_cases he : c' = c
      · simp [he] at hkept
      · exact hgone c' hc' (fun hmem => (List.mem_cons.mp hmem).elim he hn) hm
    · rintro - db₁ ⟨hsessions, hgone⟩
      have hnone : db₁.activeSession typeId g.id = none := by
        cases hf : db₁.activeSession typeId g.id with
        | none => rfl
        | some g' =>
          obtain ⟨hg', hid, ht, -⟩ := Tables.activeSession_eq_some hf
          rw [hsessions] at hg'
          rw [db.session_unique hg' hg hid] at ht
          exact absurd ht htype
      rw [wp_bind, reconcileGameSession, wp_bind, wp_query, hnone]
      exact fun hh => hgone g.creatorId hc List.not_mem_nil (hh g (hsessions ▸ hg) ha)
  | _ => exact hs.elim

end Host

namespace Host

/-- No hash verifies. -/
def noHash : Argon2 := { verify := fun _ _ => none }

/-- A session is created, its participant list is cleared under its own type, and the last player leaves. -/
def quietCalls : List Call :=
  [⟨1000, .createGameSession 1001 1 "113 => 1".toList⟩, ⟨1001, .joinGameSessionUnbounded 1002 1 2⟩,
    ⟨1002, .removeParticipants 1 2 [1001]⟩, ⟨1003, .leaveGameSession 1002 1 2⟩]

/-- A session of type 1 is created, and its creator is removed under type 99. -/
def strandingCalls : List Call :=
  [⟨1000, .createGameSession 1000 1 []⟩, ⟨1001, .removeParticipants 99 2 [1000]⟩]

end Host

end Scbl.Storage
