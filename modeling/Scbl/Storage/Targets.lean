import Scbl.Storage.Queries

/-!
# The target of an invitation

Three statements decide, each in its own words, whether the target of an invitation is valid: the clean-up deletes the invitations
whose target is not, the acceptance checks the target of what it accepts, and the search for the session of an accepted invitation
joins it. They are written here as they stand in the source; all three are the condition `validTarget`.
-/

namespace Scbl.Storage

namespace Tables

/-- `EXISTS (SELECT 1 FROM participants WHERE game_id AND user_id)`. -/
def existsParticipant (t : Tables) (gameId userId : Nat) : Bool := t.participants.any (fun p => p.gameId = gameId ∧ p.userId = userId)

/-- The target of an invitation that `cleanup_invalid_invites_async` keeps. -/
def keptTarget (t : Tables) (i : InviteRow) : Bool :=
  t.gameSessions.any (fun g => t.participants.any (fun p => (p.gameId = g.id ∧ p.userId = g.creatorId) ∧
    g.id = i.sessionId ∧ g.typeId = i.sessionType ∧
    ((i.kind ∈ [1, 2, 4] ∧ g.creatorId = i.sender) ∨ (i.kind = 3 ∧ t.existsParticipant g.id i.sender)) ∧
    g.destroyedAt = none ∧ t.stationUrls.any (·.userId = g.creatorId)))

/-- The target `accept_invite_async` checks before it authorizes an invitation to a private room or to follow a party. -/
def authorizedTarget (t : Tables) (invite : Invite) : Bool :=
  t.gameSessions.any (fun g => t.participants.any (fun host => (host.gameId = g.id ∧ host.userId = g.creatorId) ∧
    g.id = invite.sessionId ∧ g.typeId = invite.sessionType ∧ g.destroyedAt = none ∧
    t.stationUrls.any (fun endpoint => endpoint.userId = g.creatorId) ∧
    ((invite.kind = INVITE_KIND_PRIVATE_ROOM ∧ g.creatorId = invite.sender) ∨
      (invite.kind = INVITE_KIND_PARTY_FOLLOW ∧ t.existsParticipant g.id invite.sender))))

/-- The rows `find_accepted_invited_session_filtered_async` joins: invitations and the sessions they target. -/
def acceptedRows (t : Tables) (now : Time) (receiverId sessionType : Nat) (manualOnly : Bool) : List (InviteRow × GameSessionRow) :=
  t.invites.flatMap (fun i => t.gameSessions.flatMap (fun g => t.participants.filterMap (fun p =>
    if (g.id = i.sessionId ∧ g.typeId = i.sessionType) ∧ (p.gameId = g.id ∧ p.userId = g.creatorId) ∧
      i.receiver = receiverId ∧ i.sessionType = sessionType ∧ (manualOnly = false ∨ i.kind ∈ [1, 2, 4]) ∧
      i.acceptedAt ≠ none ∧ i.consumedAt = none ∧ now < i.expiresAt ∧
      ((i.kind ∈ [1, 2, 4] ∧ g.creatorId = i.sender) ∨ (i.kind = 3 ∧ t.existsParticipant g.id i.sender)) ∧
      g.destroyedAt = none ∧ t.stationUrls.any (·.userId = g.creatorId)
    then some (i, g) else none)))

/-- `ORDER BY i.created DESC, i.rowid DESC LIMIT 1` on the joined rows. -/
def newestRow (rows : List (InviteRow × GameSessionRow)) : Option (InviteRow × GameSessionRow) :=
  (rows.insertionSort (fun r s =>
    s.1.created < r.1.created ∨ (s.1.created = r.1.created ∧ s.1.rowid ≤ r.1.rowid))).head?

variable {t : Tables}

theorem existsParticipant_eq (gameId userId : Nat) : t.existsParticipant gameId userId = t.isParticipant gameId userId := by
  rw [Bool.eq_iff_iff, existsParticipant, isParticipant, List.any_eq_true, decide_eq_true_eq]
  constructor
  · rintro ⟨p, hp, hmatch⟩
    obtain ⟨rfl, rfl⟩ := of_decide_eq_true hmatch
    exact hp
  · exact fun hp => ⟨_, hp, decide_eq_true ⟨rfl, rfl⟩⟩

/-- The kinds of the invitations whose sender hosts the session. -/
theorem mem_hostKinds {kind : Nat} : kind ∈ [1, 2, 4] ↔
    kind = INVITE_KIND_PRIVATE_ROOM ∨ kind = INVITE_KIND_LOBBY_PARTY ∨ kind = INVITE_KIND_LOBBY_RESTORE := by
  simp [INVITE_KIND_PRIVATE_ROOM, INVITE_KIND_LOBBY_PARTY, INVITE_KIND_LOBBY_RESTORE]

/-- Joining the host and filtering is filtering the sessions whose host takes part. -/
theorem any_join_host {g : GameSessionRow} {P : Prop} [Decidable P] :
    t.participants.any (fun p => (p.gameId = g.id ∧ p.userId = g.creatorId) ∧ P) = decide (t.isParticipant g.id g.creatorId = true ∧ P) := by
  rw [Bool.eq_iff_iff, ← existsParticipant_eq, existsParticipant, decide_eq_true_eq, List.any_eq_true, List.any_eq_true]
  constructor
  · rintro ⟨p, hp, hmatch⟩
    obtain ⟨hhost, h⟩ := of_decide_eq_true hmatch
    exact ⟨⟨p, hp, decide_eq_true hhost⟩, h⟩
  · rintro ⟨⟨p, hp, hhost⟩, h⟩
    exact ⟨p, hp, decide_eq_true ⟨of_decide_eq_true hhost, h⟩⟩

/-- The clean-up keeps the invitations with a valid target. -/
theorem keptTarget_eq (i : InviteRow) : t.keptTarget i = t.validTarget i.kind i.sender i.sessionType i.sessionId := by
  unfold keptTarget validTarget
  refine congrArg (List.any t.gameSessions) (funext fun g => ?_)
  rw [any_join_host, existsParticipant_eq]
  refine decide_eq_decide.mpr ?_
  rw [mem_hostKinds]
  exact ⟨fun ⟨hhost, hid, htype, h⟩ => ⟨hid, htype, hhost, h⟩, fun ⟨hid, htype, hhost, h⟩ => ⟨hhost, hid, htype, h⟩⟩

/-- The acceptance checks what the clean-up keeps. -/
theorem authorizedTarget_eq {invite : Invite} (h : invite.kind = INVITE_KIND_PRIVATE_ROOM ∨ invite.kind = INVITE_KIND_PARTY_FOLLOW) :
    t.authorizedTarget invite = t.validTarget invite.kind invite.sender invite.sessionType invite.sessionId := by
  unfold authorizedTarget validTarget
  refine congrArg (List.any t.gameSessions) (funext fun g => ?_)
  rw [any_join_host, existsParticipant_eq]
  refine decide_eq_decide.mpr ?_
  have hkind : (invite.kind = INVITE_KIND_PRIVATE_ROOM ∨ invite.kind = INVITE_KIND_LOBBY_PARTY ∨
      invite.kind = INVITE_KIND_LOBBY_RESTORE) ↔ invite.kind = INVITE_KIND_PRIVATE_ROOM := by
    rcases h with h | h <;> rw [h] <;> decide
  rw [hkind]
  exact ⟨fun ⟨hhost, hid, htype, hactive, hend, hkind⟩ => ⟨hid, htype, hhost, hkind, hactive, hend⟩,
    fun ⟨hid, htype, hhost, hkind, hactive, hend⟩ => ⟨hhost, hid, htype, hactive, hend, hkind⟩⟩

/-- The joined rows are the accepted invitations with a valid target and the sessions they target. -/
theorem mem_acceptedRows {now : Time} {receiverId sessionType : Nat} {manualOnly : Bool} {i : InviteRow} {g : GameSessionRow} :
    (i, g) ∈ t.acceptedRows now receiverId sessionType manualOnly ↔
      (i ∈ t.invites ∧ i.receiver = receiverId ∧ i.sessionType = sessionType ∧ (manualOnly = false ∨ i.kind ∈ [1, 2, 4]) ∧
        i.acceptedAt ≠ none ∧ i.consumedAt = none ∧ now < i.expiresAt) ∧
      g ∈ t.gameSessions ∧ g.id = i.sessionId ∧ g.typeId = i.sessionType ∧ t.isParticipant g.id g.creatorId = true ∧
        ((i.kind ∈ [1, 2, 4] ∧ g.creatorId = i.sender) ∨ (i.kind = 3 ∧ t.isParticipant g.id i.sender = true)) ∧
        g.destroyedAt = none ∧ t.hasEndpoint g.creatorId = true := by
  simp only [acceptedRows, List.mem_flatMap, List.mem_filterMap, existsParticipant_eq]
  constructor
  · rintro ⟨i', hi, g', hg, p, hp, hrow⟩
    split at hrow
    · rename_i hmatch
      obtain ⟨rfl, rfl⟩ := Prod.mk.inj (Option.some.inj hrow)
      obtain ⟨⟨hid, htype⟩, ⟨hgame, huser⟩, hr, hst, hmanual, ha, hc, he, hkind, hactive, hend⟩ := hmatch
      refine ⟨⟨hi, hr, hst, hmanual, ha, hc, he⟩, hg, hid, htype, ?_, hkind, hactive, hend⟩
      rw [← hgame, ← huser]
      exact decide_eq_true hp
    · nomatch hrow
  · rintro ⟨⟨hi, hr, hst, hmanual, ha, hc, he⟩, hg, hid, htype, hhost, hkind, hactive, hend⟩
    exact ⟨i, hi, g, hg, _, of_decide_eq_true hhost,
      if_pos ⟨⟨hid, htype⟩, ⟨rfl, rfl⟩, hr, hst, hmanual, ha, hc, he, hkind, hactive, hend⟩⟩

end Tables

end Scbl.Storage
