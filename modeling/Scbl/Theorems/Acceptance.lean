import Scbl.Lemmas.Statements
import Scbl.Storage.Targets
import Scbl.Theorems.Host

/-!
# Accepted invitations resolve

The clean-up, the acceptance and the search for the session of an accepted invitation agree on which targets are valid. So what the
clean-up keeps can be accepted, what was accepted is found, and of several accepted invitations the newest is.
-/

namespace Scbl.Storage

open Scbl.Lib

/-- An invitation the clean-up keeps. -/
structure Tables.Standing (t : Tables) (now : Time) (i : InviteRow) : Prop where
  row : i ∈ t.invites
  unconsumed : i.consumedAt = none
  unexpired : now < i.expiresAt
  target : t.keptTarget i = true

/-- An accepted invitation of a user to a session of a type that can still be followed. -/
structure Tables.Followable (t : Tables) (now : Time) (receiverId sessionType : Nat) (i : InviteRow) : Prop extends t.Standing now i where
  receiver : i.receiver = receiverId
  type : i.sessionType = sessionType
  accepted : i.acceptedAt ≠ none

/-- The newest of these invitations, and the session it targets. -/
structure Tables.Resolves (t : Tables) (now : Time) (receiverId sessionType : Nat) (i : InviteRow) (g : GameSessionRow) : Prop where
  followable : t.Followable now receiverId sessionType i
  newest : ∀ j, t.Followable now receiverId sessionType j → j.created < i.created ∨ (j.created = i.created ∧ j.rowid ≤ i.rowid)
  session : g ∈ t.gameSessions
  id : g.id = i.sessionId
  type : g.typeId = i.sessionType
  active : g.destroyedAt = none

/-- The session of an invitation: as it is stored, but that to a private room with the class of a lobby. -/
def Tables.invitedSession (t : Tables) (i : InviteRow) (g : GameSessionRow) (attributes : Text) : InvitedGameSession :=
  { inviteId := i.rowid
    kind := i.kind
    senderId := i.sender
    session :=
      { sessionType := g.typeId
        sessionId := g.id
        creatorId := g.creatorId
        attributes := if i.kind = INVITE_KIND_PRIVATE_ROOM then projectPrivateInviteSessionClassOnly attributes else attributes
        participants := (t.participantIds g.id).filterMap (t.participant t.urlsByUrl) } }

namespace Acceptance

open Tables

variable {ρ : Type} {t t' : Tables} {db : Database} {now : Time} {userId inviteId sessionType : Nat} {i : InviteRow}

/-! ## The newest invitation -/

/-- One invitation comes before another. -/
def Before (i j : InviteRow) : Prop := j.created < i.created ∨ (j.created = i.created ∧ j.rowid ≤ i.rowid)

instance : DecidableRel Before := fun _ _ => inferInstanceAs (Decidable (_ ∨ _))

instance : Std.Total Before where
  total i j := by
    rcases lt_trichotomy i.created j.created with h | h | h
    · exact .inr (.inl h)
    · exact (Nat.le_total i.rowid j.rowid).elim (fun hle => .inr (.inr ⟨h, hle⟩)) fun hle => .inl (.inr ⟨h.symm, hle⟩)
    · exact .inl (.inl h)

instance : IsTrans InviteRow Before where
  trans _ _ _ := by
    rintro (h | ⟨h, hle⟩) (h' | ⟨h', hle'⟩)
    · exact .inl (lt_trans h' h)
    · exact .inl (h'.trans_lt h)
    · exact .inl (h'.trans_eq h)
    · exact .inr ⟨h'.trans h, le_trans hle' hle⟩

instance : Std.Total (fun r s : InviteRow × GameSessionRow => Before r.1 s.1) where
  total r s := Std.Total.total (r := Before) r.1 s.1

instance : IsTrans (InviteRow × GameSessionRow) (fun r s => Before r.1 s.1) where
  trans r s u := IsTrans.trans (r := Before) r.1 s.1 u.1

/-- Of two invitations each is before the other only if they have one row id. -/
theorem Before.rowid_eq {j : InviteRow} (h : Before i j) (h' : Before j i) : i.rowid = j.rowid := by
  rcases h with h | ⟨h, hle⟩
  · rcases h' with h' | ⟨h', -⟩
    · exact absurd h (lt_asymm h')
    · exact absurd h'.symm (ne_of_lt h)
  · rcases h' with h' | ⟨-, hle'⟩
    · exact absurd h.symm (ne_of_lt h')
    · exact le_antisymm hle' hle

theorem newest_before {rows : List InviteRow} (h : newest rows = some i) : i ∈ rows ∧ ∀ j ∈ rows, Before i j :=
  head_insertionSort Before h

/-- There is a newest of some invitations. -/
theorem newest_of_mem {rows : List InviteRow} (h : i ∈ rows) : ∃ j, newest rows = some j := by
  have hmem : i ∈ rows.insertionSort Before := (List.mem_insertionSort _).mpr h
  exact Option.isSome_iff_exists.mp (List.isSome_head?.mpr (List.ne_nil_of_mem hmem))

/-! ## Valid targets -/

/-- The target of an invitation depends on sessions, participants and endpoints only. -/
theorem keptTarget_congr (hsessions : t'.gameSessions = t.gameSessions) (hparticipants : t'.participants = t.participants)
    (hurls : t'.stationUrls = t.stationUrls) (i : InviteRow) : t'.keptTarget i = t.keptTarget i := by
  unfold keptTarget existsParticipant
  rw [hsessions, hparticipants, hurls]

/-- The session a valid target names. -/
theorem exists_session (h : t.keptTarget i = true) :
    ∃ g ∈ t.gameSessions, g.id = i.sessionId ∧ g.typeId = i.sessionType ∧ g.destroyedAt = none := by
  obtain ⟨g, hg, hmatch⟩ := List.any_eq_true.mp h
  obtain ⟨p, -, hmatch⟩ := List.any_eq_true.mp hmatch
  obtain ⟨-, hid, htype, -, hactive, -⟩ := of_decide_eq_true hmatch
  exact ⟨g, hg, hid, htype, hactive⟩

/-- The tables after the clean-up. -/
def cleaned (t : Tables) (now : Time) : Tables :=
  t.deleteInvites (fun i => i.consumedAt ≠ none ∨ i.expiresAt ≤ now ∨ !t.validTarget i.kind i.sender i.sessionType i.sessionId)

theorem wp_cleanupInvalidInvites {E : Abort StorageError ρ → Prop} :
    wp (cleanupInvalidInvites now : StorageTx ρ Unit) (fun _ db' => db'.toTables = cleaned db.toTables now) E db :=
  wp_statement_ok ((Tables.shrinks_deleteInvites _ _).integrity db.integrity) fun _ h => h

/-- The clean-up keeps the invitations it should. -/
theorem mem_cleaned : i ∈ (cleaned t now).invites ↔ t.Standing now i := by
  simp only [cleaned, deleteInvites, List.mem_filter, ← keptTarget_eq, Bool.not_eq_true', decide_eq_false_iff_not, not_or,
    Decidable.not_not, Nat.not_le, Bool.not_eq_false]
  exact ⟨fun ⟨hi, hc, he, ht⟩ => ⟨hi, hc, he, ht⟩, fun h => ⟨h.row, h.unconsumed, h.unexpired, h.target⟩⟩

/-! ## The acceptance -/

/-- The tables after the acceptance of an invitation. -/
def acceptedTables (t : Tables) (now : Time) (userId inviteId : Nat) : Tables :=
  (cleaned t now).updateInvites (fun i => i.rowid = inviteId ∧ i.receiver = userId ∧ i.consumedAt = none ∧ now < i.expiresAt)
    (fun i => { i with acceptedAt := some (i.acceptedAt.getD now) })

/-- An invitation that was accepted under an id by a user. -/
def isAccepted (now : Time) (userId inviteId : Nat) (i : InviteRow) : Bool :=
  i.rowid = inviteId ∧ i.receiver = userId ∧ i.acceptedAt ≠ none ∧ i.consumedAt = none ∧ now < i.expiresAt

/-- An invitation after the acceptance is one the clean-up keeps, but for the time it was accepted. -/
theorem standing_of_accepted (h : i ∈ (acceptedTables t now userId inviteId).invites) :
    ∃ j, t.Standing now j ∧ j.toInvite = i.toInvite ∧ j.expiresAt = i.expiresAt ∧ (acceptedTables t now userId inviteId).Standing now i := by
  obtain ⟨j, hj, hji⟩ := List.mem_map.mp h
  have hstanding := mem_cleaned.mp hj
  have hsame : j.toInvite = i.toInvite ∧ j.expiresAt = i.expiresAt ∧ i.consumedAt = none ∧ t.keptTarget i = t.keptTarget j := by
    rw [← hji]
    split
    · exact ⟨rfl, rfl, hstanding.unconsumed, rfl⟩
    · exact ⟨rfl, rfl, hstanding.unconsumed, rfl⟩
  obtain ⟨hinvite, hexpires, hconsumed, htarget⟩ := hsame
  refine ⟨j, hstanding, hinvite, hexpires, h, hconsumed, hexpires ▸ hstanding.unexpired, ?_⟩
  have hkept : (acceptedTables t now userId inviteId).keptTarget i = t.keptTarget i := keptTarget_congr rfl rfl rfl i
  rw [hkept, htarget]
  exact hstanding.target

/-- The acceptance marks the invitation, and answers with it when the clean-up kept it. -/
theorem acceptInvite_eq (now : Time) (userId inviteId : Nat) (db : Database) :
    let after := acceptInvite now userId inviteId db
    after.1.toTables = acceptedTables db.toTables now userId inviteId ∧
      after.2 = .ok (((acceptedTables db.toTables now userId inviteId).invites.find? (isAccepted now userId inviteId)).map (·.toInvite)) := by
  refine transaction_of_wp (P := fun r : Database × Except StorageError (Option Invite) =>
    r.1.toTables = acceptedTables db.toTables now userId inviteId ∧
      r.2 = .ok (((acceptedTables db.toTables now userId inviteId).invites.find? (isAccepted now userId inviteId)).map (·.toInvite))) ?_
  rw [wp_bind]
  refine wp_mono wp_cleanupInvalidInvites fun _ db₁ h₁ => ?_
  rw [wp_bind]
  refine wp_statement_ok (db₁.integrity.updateInvites _ (fun _ => rfl) (fun _ => rfl) (fun _ => rfl)) fun db₂ h₂ => ?_
  rw [h₁] at h₂
  have hdb₂ : db₂.toTables = acceptedTables db.toTables now userId inviteId := h₂
  rw [wp_bind, wp_query, hdb₂]
  have haccepted : (fun i : InviteRow => decide (i.rowid = inviteId ∧ i.receiver = userId ∧ i.acceptedAt ≠ none ∧ i.consumedAt = none ∧
    now < i.expiresAt)) = isAccepted now userId inviteId := rfl
  rw [haccepted]
  cases hfound : (acceptedTables db.toTables now userId inviteId).invites.find? (isAccepted now userId inviteId) with
  | none => exact ⟨hdb₂, rfl⟩
  | some row =>
    obtain ⟨-, -, -, -, hstanding⟩ := standing_of_accepted (List.mem_of_find?_eq_some hfound)
    simp only [Option.map_some]
    split
    · -- the check of the acceptance passes, as the clean-up kept the invitation
      have hvalid : db₂.validTarget row.toInvite.kind row.toInvite.sender row.toInvite.sessionType row.toInvite.sessionId = true := by
        rw [hdb₂]
        exact (keptTarget_eq row).symm.trans hstanding.target
      rw [wp_bind, wp_query, if_pos hvalid]
      exact ⟨hdb₂, rfl⟩
    · exact ⟨hdb₂, rfl⟩

/-- An invitation of the user that the clean-up keeps is accepted. -/
theorem acceptInvite_standing (h : db.Standing now i) (hr : i.receiver = userId) :
    (acceptInvite now userId i.rowid db).2 = .ok (some i.toInvite) := by
  obtain ⟨htables, hanswer⟩ := acceptInvite_eq now userId i.rowid db
  rw [hanswer]
  let i' : InviteRow := { i with acceptedAt := some (i.acceptedAt.getD now) }
  have hmem : i' ∈ (acceptedTables db.toTables now userId i.rowid).invites :=
    List.mem_map.mpr ⟨i, mem_cleaned.mpr h, if_pos (decide_eq_true ⟨rfl, hr, h.unconsumed, h.unexpired⟩)⟩
  have haccepted : isAccepted now userId i.rowid i' = true :=
    decide_eq_true ⟨rfl, hr, nofun, h.unconsumed, h.unexpired⟩
  obtain ⟨row, hrow⟩ := Option.isSome_iff_exists.mp (List.find?_isSome.mpr ⟨i', hmem, haccepted⟩)
  have hmatch : isAccepted now userId i.rowid row = true := List.find?_some hrow
  have hid : row.rowid = i.rowid := (of_decide_eq_true hmatch).1
  have hkeys : ((acceptedTables db.toTables now userId i.rowid).invites.map (·.rowid)).Nodup := by
    rw [← htables]
    exact (acceptInvite now userId i.rowid db).1.keys.invites
  rw [hrow, List.inj_on_of_nodup_map hkeys (List.mem_of_find?_eq_some hrow) hmem hid]
  rfl

/-- An accepted invitation can be followed until it expires. -/
theorem followable_of_accepted {invite : Invite} (h : (acceptInvite now userId inviteId db).2 = .ok (some invite)) :
    ∃ row ∈ (acceptInvite now userId inviteId db).1.invites, row.rowid = inviteId ∧ now < row.expiresAt ∧
      ∀ later, later < row.expiresAt → (acceptInvite now userId inviteId db).1.Followable later userId invite.sessionType row := by
  obtain ⟨htables, hanswer⟩ := acceptInvite_eq now userId inviteId db
  rw [hanswer] at h
  obtain ⟨row, hrow, rfl⟩ := Option.map_eq_some_iff.mp (Except.ok.inj h)
  have hmatch : isAccepted now userId inviteId row = true := List.find?_some hrow
  obtain ⟨hid, hr, ha, hc, he⟩ := of_decide_eq_true hmatch
  obtain ⟨-, -, -, -, hstanding⟩ := standing_of_accepted (List.mem_of_find?_eq_some hrow)
  rw [htables]
  exact ⟨row, hstanding.row, hid, he, fun later hl => ⟨⟨hstanding.row, hc, hl, hstanding.target⟩, hr, rfl, ha⟩⟩

/-! ## The search -/

/-- The invitations the search chooses from. -/
theorem mem_followable : i ∈ t.invites.filter (fun i => i.receiver = userId ∧ i.sessionType = sessionType ∧
      (false = true → i.kind = INVITE_KIND_PRIVATE_ROOM ∨ i.kind = INVITE_KIND_LOBBY_PARTY ∨ i.kind = INVITE_KIND_LOBBY_RESTORE) ∧
      i.acceptedAt ≠ none ∧ i.consumedAt = none ∧ now < i.expiresAt ∧ t.validTarget i.kind i.sender i.sessionType i.sessionId) ↔
    t.Followable now userId sessionType i := by
  rw [List.mem_filter, decide_eq_true_eq, ← keptTarget_eq]
  exact ⟨fun ⟨hi, hr, ht, _, ha, hc, he, hv⟩ => ⟨⟨hi, hc, he, hv⟩, hr, ht, ha⟩,
    fun h => ⟨h.row, h.receiver, h.type, nofun, h.accepted, h.unconsumed, h.unexpired, h.target⟩⟩

/-- A row of the join is an invitation that can be followed and the session it targets. -/
theorem followable_of_row {g : GameSessionRow} (h : (i, g) ∈ t.acceptedRows now userId sessionType false) :
    t.Followable now userId sessionType i ∧ g ∈ t.gameSessions ∧ g.id = i.sessionId := by
  obtain ⟨⟨hi, hr, hst, -, ha, hc, he⟩, hg, hid, htype, hhost, hkind, hactive, hend⟩ := mem_acceptedRows.mp h
  have htarget : t.keptTarget i = true := by
    rw [keptTarget_eq]
    exact List.any_eq_true.mpr ⟨g, hg, decide_eq_true ⟨hid, htype, hhost, by rwa [mem_hostKinds] at hkind, hactive, hend⟩⟩
  exact ⟨⟨⟨hi, hc, he, htarget⟩, hr, hst, ha⟩, hg, hid⟩

/-- The newest invitation that can be followed is the first row of the join. -/
theorem newestRow_of_resolves {g : GameSessionRow} (h : db.Resolves now userId sessionType i g) :
    newestRow (db.acceptedRows now userId sessionType false) = some (i, g) := by
  have hfollowable := h.followable
  have hrow : (i, g) ∈ db.acceptedRows now userId sessionType false := by
    have hvalid := hfollowable.target
    rw [keptTarget_eq] at hvalid
    obtain ⟨g', hg', hmatch⟩ := List.any_eq_true.mp hvalid
    obtain ⟨hid, htype, hhost, hkind, hactive, hend⟩ := of_decide_eq_true hmatch
    obtain rfl := db.session_unique hg' h.session (hid.trans h.id.symm)
    rw [← mem_hostKinds] at hkind
    exact mem_acceptedRows.mpr ⟨⟨hfollowable.row, hfollowable.receiver, hfollowable.type, .inl rfl, hfollowable.accepted,
      hfollowable.unconsumed, hfollowable.unexpired⟩, hg', hid, htype, hhost, hkind, hactive, hend⟩
  obtain ⟨⟨j, g'⟩, hfirst⟩ : ∃ row, newestRow (db.acceptedRows now userId sessionType false) = some row :=
    Option.isSome_iff_exists.mp (List.isSome_head?.mpr (List.ne_nil_of_mem ((List.mem_insertionSort _).mpr hrow)))
  obtain ⟨hmem, hbefore⟩ := head_insertionSort (fun r s : InviteRow × GameSessionRow => Before r.1 s.1) hfirst
  obtain ⟨hj, hg', hid⟩ := followable_of_row hmem
  have hsame : j = i :=
    List.inj_on_of_nodup_map db.keys.invites hj.row hfollowable.row (Before.rowid_eq (hbefore _ hrow) (h.newest j hj))
  obtain rfl := hsame
  rw [hfirst, db.session_unique hg' h.session (hid.trans h.id.symm)]

/-- When an invitation can be followed, the search finds the newest one that can. -/
theorem find_resolves (h : db.Followable now userId sessionType i) :
    ∃ i g, db.Resolves now userId sessionType i g ∧ ∀ attributes, g.attributes = some attributes →
      findAcceptedInvitedSession userId sessionType false now db.toTables = .ok (some (db.invitedSession i g attributes)) := by
  obtain ⟨j, hj⟩ := newest_of_mem (mem_followable.mpr h)
  have hfound : db.acceptedInvite now userId sessionType false = some j := hj
  obtain ⟨hmem, hbefore⟩ := newest_before hj
  have hfollowable := mem_followable.mp hmem
  obtain ⟨g, hg, hid, htype, hactive⟩ := exists_session hfollowable.target
  refine ⟨j, g, ⟨hfollowable, fun k hk => hbefore k (mem_followable.mpr hk), hg, hid, htype, hactive⟩, fun attributes ha => ?_⟩
  have hsession : db.gameSessions.find? (fun g => g.id = j.sessionId ∧ g.typeId = j.sessionType) = some g := by
    cases hg' : db.gameSessions.find? (fun g => g.id = j.sessionId ∧ g.typeId = j.sessionType) with
    | none => exact absurd (decide_eq_true ⟨hid, htype⟩) (List.find?_eq_none.mp hg' g hg)
    | some g' =>
      have hid' : g'.id = j.sessionId := (by simpa using List.find?_some hg' : g'.id = j.sessionId ∧ g'.typeId = j.sessionType).1
      rw [db.session_unique (List.mem_of_find?_eq_some hg') hg (hid'.trans hid.symm)]
  unfold findAcceptedInvitedSession
  rw [hfound]
  simp only [hsession, sessionByUser, decodeSession, ha]
  unfold invitedSession
  by_cases hkind : j.kind = INVITE_KIND_PRIVATE_ROOM
  · simp only [hkind, if_true]
    rfl
  · simp only [hkind, if_false]
    rfl

/-! ## The delivery -/

/-- A delivered invitation is one the clean-up keeps, before the delivery and after it. -/
theorem standing_of_taken {invite : Invite} (h : (takeInvite now userId db).2 = .ok (some invite)) :
    (∃ i, db.Standing now i ∧ i.receiver = userId ∧ invite = { i.toInvite with deliveryCount := i.deliveryCount + 1 }) ∧
      ∃ i, (takeInvite now userId db).1.Standing now i ∧ i.receiver = userId ∧ invite = i.toInvite := by
  revert h
  refine transaction_of_wp (P := fun r : Database × Except StorageError (Option Invite) => r.2 = .ok (some invite) →
    (∃ i, db.Standing now i ∧ i.receiver = userId ∧ invite = { i.toInvite with deliveryCount := i.deliveryCount + 1 }) ∧
      ∃ i, r.1.Standing now i ∧ i.receiver = userId ∧ invite = i.toInvite) ?_
  rw [wp_bind]
  refine wp_mono wp_cleanupInvalidInvites fun _ db₁ h₁ => ?_
  rw [wp_bind]
  refine wp_statement_ok (db₁.integrity.updateInvites _ (fun _ => rfl) (fun _ => rfl) (fun _ => rfl)) fun db₂ h₂ => ?_
  rw [wp_bind, wp_query]
  generalize hfound : newest _ = found
  cases found with
  | none => exact fun h => by cases h
  | some row =>
    obtain ⟨hrow, hmatch⟩ := List.mem_filter.mp (mem_of_newest hfound)
    obtain ⟨hr, -, hc, he, -, -⟩ := of_decide_eq_true hmatch
    simp only [wp_bind]
    refine wp_statement_ok (db₂.integrity.updateInvites _ (fun _ => rfl) (fun _ => rfl) (fun _ => rfl)) fun db₃ h₃ => ?_
    rw [wp_pure]
    rintro ⟨⟩
    -- the row was not consumed as redundant, so it is a row that the clean-up kept
    have hstanding : db.Standing now row := by
      rw [h₂] at hrow
      obtain ⟨j, hj, hrow⟩ := List.mem_map.mp hrow
      split at hrow
      · rw [← hrow] at hc
        cases hc
      · rw [h₁] at hj
        exact hrow ▸ mem_cleaned.mp hj
    refine ⟨⟨row, hstanding, hr, rfl⟩, { row with deliveredAt := some now, deliveryCount := row.deliveryCount + 1 }, ?_, hr, rfl⟩
    refine ⟨?_, hc, he, ?_⟩
    · rw [h₃]
      exact List.mem_map.mpr ⟨row, hrow, if_pos (decide_eq_true rfl)⟩
    · refine (keptTarget_congr (t := db.toTables) ?_ ?_ ?_ _).trans hstanding.target <;> rw [h₃, updateInvites, h₂, updateInvites, h₁] <;> rfl

end Acceptance

open Acceptance

namespace Acceptance

/-- The user 1000, whose endpoint the migrations register, opens a game room and invites the user 1001 to it. -/
def acceptingCalls : List Call := [⟨1000, .createGameSession 1000 1 "113 => 0".toList⟩, ⟨1001, .addInvite 1000 1001 1 1 2⟩]

end Acceptance

end Scbl.Storage
