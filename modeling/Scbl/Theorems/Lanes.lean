import Scbl.Lemmas.Parts
import Scbl.Lib.Slots
import Scbl.Theorems.Host

/-!
# Invitation lanes

A receiver has three lanes of invitations: those sent by hand, those that follow a party, and those back to a lobby. An invitation
that was not consumed occupies the lane of its kind, and no lane is ever occupied twice, whatever operations are executed in
whatever order. Each of the three places that insert an invitation vacates the lane in its own way.
-/

namespace Scbl.Storage

open Scbl.Lib

/-- The invitations for a receiver of some kinds that were not consumed. -/
def Tables.unconsumed (t : Tables) (receiver : Nat) (kinds : List Nat) : List InviteRow :=
  t.invites.filter (fun i => i.receiver = receiver ∧ i.kind ∈ kinds ∧ i.consumedAt = none)

namespace Lanes

/-- The lanes of a receiver. -/
inductive Lane where
  | manual | partyFollow | lobbyRestore
  deriving DecidableEq

/-- The lane of a kind. -/
def laneOf (kind : Nat) : Option Lane :=
  if kind = INVITE_KIND_PRIVATE_ROOM ∨ kind = INVITE_KIND_LOBBY_PARTY then some .manual
  else if kind = INVITE_KIND_PARTY_FOLLOW then some .partyFollow
  else if kind = INVITE_KIND_LOBBY_RESTORE then some .lobbyRestore
  else none

/-- What an invitation occupies: the lane of its receiver, until it is consumed. -/
def slot (i : InviteRow) : Option (Nat × Lane) := if i.consumedAt = none then (laneOf i.kind).map (i.receiver, ·) else none

/-- No lane is occupied twice, and an invitation that follows a party names the party. -/
structure Ordered (db : Database) : Prop where
  exclusive : Exclusive slot db.invites
  party : ∀ i ∈ db.invites, i.kind = INVITE_KIND_PARTY_FOLLOW → i.partyId ≠ none

theorem slot_eq_some {i : InviteRow} {receiver : Nat} {lane : Lane} (h : slot i = some (receiver, lane)) :
    i.consumedAt = none ∧ i.receiver = receiver ∧ laneOf i.kind = some lane := by
  unfold slot at h
  split at h
  · rename_i hc
    obtain ⟨l, hl, he⟩ := Option.map_eq_some_iff.mp h
    obtain ⟨hr, rfl⟩ := Prod.mk.inj he
    exact ⟨hc, hr, hl⟩
  · nomatch h

theorem laneOf_manual {kind : Nat} :
    laneOf kind = some .manual ↔ kind = INVITE_KIND_PRIVATE_ROOM ∨ kind = INVITE_KIND_LOBBY_PARTY := by
  unfold laneOf
  split_ifs with h <;> simp [h]

theorem laneOf_partyFollow {kind : Nat} : laneOf kind = some .partyFollow ↔ kind = INVITE_KIND_PARTY_FOLLOW := by
  unfold laneOf
  split_ifs with h hf
  · rcases h with rfl | rfl <;> decide
  · simp [hf]
  · simp [hf]
  · simp [hf]

theorem laneOf_lobbyRestore {kind : Nat} : laneOf kind = some .lobbyRestore ↔ kind = INVITE_KIND_LOBBY_RESTORE := by
  unfold laneOf
  split_ifs with h hf hr
  · rcases h with rfl | rfl <;> decide
  · rw [hf]
    decide
  · simp [hr]
  · simp [hr]

variable {db db' : Database}

/-- Invitations were deleted at most. -/
theorem Ordered.sublist (h : Ordered db) (hs : db'.invites.Sublist db.invites) : Ordered db' :=
  ⟨h.exclusive.sublist hs, fun i hi => h.party i (hs.subset hi)⟩

/-- Invitations were updated: they keep their slots or leave them. -/
theorem Ordered.update (h : Ordered db) {p : InviteRow → Bool} {f : InviteRow → InviteRow}
    (hdb : db'.toTables = db.updateInvites p f) (hslot : ∀ i, slot (f i) = slot i ∨ slot (f i) = none)
    (hkind : ∀ i, (f i).kind = i.kind) (hparty : ∀ i, (f i).partyId = i.partyId) : Ordered db' := by
  have hinvites : db'.invites = db.invites.map (fun i => if p i then f i else i) := by rw [hdb]; rfl
  constructor
  · rw [hinvites]
    refine h.exclusive.map fun i => ?_
    split
    · exact hslot i
    · exact .inl rfl
  · rw [hinvites]
    intro i' hi' hk
    obtain ⟨i, hi, rfl⟩ := List.mem_map.mp hi'
    split at hk
    · rename_i hp
      rw [if_pos hp, hparty]
      exact h.party i hi (hkind i ▸ hk)
    · rename_i hp
      rw [if_neg hp]
      exact h.party i hi hk

/-- An invitation was inserted whose lane was vacant. -/
theorem Ordered.insert (h : Ordered db) (lane : Lane) {now expiresAt : Time} {sender receiver kind sessionType sessionId : Nat}
    {partyId : Option Nat} (hdb : db'.toTables = db.insertInvite now sender receiver kind sessionType sessionId partyId expiresAt)
    (hlane : laneOf kind = some lane) (hparty : kind = INVITE_KIND_PARTY_FOLLOW → partyId ≠ none)
    (hvacant : ∀ i ∈ db.invites, i.consumedAt = none → i.receiver = receiver → laneOf i.kind ≠ some lane) : Ordered db' := by
  let row : InviteRow :=
    { rowid := db.nextInviteId, sender, receiver, created := now, sessionType, sessionId, expiresAt, kind, partyId }
  have hinvites : db'.invites = db.invites ++ [row] := by rw [hdb]; rfl
  have hslot : slot row = some (receiver, lane) := by
    simp [slot, row, hlane]
  constructor
  · rw [hinvites]
    refine h.exclusive.append fun k hk i hi hik => ?_
    rw [hslot] at hk
    cases hk
    obtain ⟨hc, hr, hl⟩ := slot_eq_some hik
    exact hvacant i hi hc hr hl
  · rw [hinvites]
    intro i hi hk
    rcases List.mem_append.mp hi with hi | hi
    · exact h.party i hi hk
    · rw [List.mem_singleton.mp hi] at hk ⊢
      exact hparty hk

section Operations

variable {ρ : Type}

/-- A statement that leaves the invitations alone. -/
theorem moves_untouched {f : Tables → Tables} (hf : ∀ t, (f t).invites = t.invites) :
    Moves (Keeps Ordered) (statement f : StorageTx ρ Unit) :=
  moves_statement_of fun db db' h ho => ho.sublist (by rw [h, hf])

/-- A statement that deletes invitations at most. -/
theorem moves_sublist {f : Tables → Tables} (hf : ∀ t, (f t).invites.Sublist t.invites) :
    Moves (Keeps Ordered) (statement f : StorageTx ρ Unit) :=
  moves_statement_of fun db db' h ho => ho.sublist (by rw [h]; exact hf db.toTables)

theorem moves_ensurePartyForLeader (leaderId : Nat) :
    Moves (Keeps Ordered) (ensurePartyForLeader leaderId : StorageTx ρ Nat) := by
  refine Moves.bind (Moves.bind (Moves.select _) fun found => ?_) fun partyId =>
    Moves.bind (moves_untouched fun _ => rfl) fun _ => Moves.pure _
  cases found with
  | none => exact Moves.bind (Moves.select _) fun _ => Moves.bind (moves_untouched fun _ => rfl) fun _ => Moves.pure _
  | some partyId => exact Moves.pure _

theorem moves_joinInvitingParty (now : Time) (userId typeId sessionId : Nat) :
    Moves (Keeps Ordered) (joinInvitingParty now userId typeId sessionId : StorageTx ρ Unit) := by
  refine Moves.bind (Moves.select _) fun found => ?_
  cases found with
  | none => exact Moves.pure _
  | some invite => exact Moves.bind (moves_untouched fun _ => rfl) fun _ => moves_untouched fun _ => rfl

/-- An update of invitations. -/
theorem moves_update (p : Tables → InviteRow → Bool) {f : InviteRow → InviteRow}
    (hslot : ∀ i, slot (f i) = slot i ∨ slot (f i) = none) (hkind : ∀ i, (f i).kind = i.kind)
    (hparty : ∀ i, (f i).partyId = i.partyId) :
    Moves (Keeps Ordered) (statement (fun t => t.updateInvites (p t) f) : StorageTx ρ Unit) :=
  moves_statement_of fun _ _ h ho => ho.update h hslot hkind hparty

/-- The invitation to follow the party comes when nothing is left in its lane: what was no invitation to this session is deleted,
and there is none to this session. -/
theorem moves_queuePartyFollowInvite (now : Time) (leaderId sessionType sessionId partyId receiverId : Nat) :
    Moves (Keeps Ordered)
      (queuePartyFollowInvite now leaderId sessionType sessionId partyId receiverId : StorageTx ρ Unit) := by
  intro db
  unfold queuePartyFollowInvite
  rw [wp_bind]
  refine wp_statement fun db₁ h₁ => ?_
  have hsub : db₁.invites.Sublist db.invites := by rw [h₁]; exact List.filter_sublist
  rw [wp_bind, wp_query]
  split
  · exact fun h => h.sublist hsub
  · rename_i hpending
    refine wp_statement fun db₂ h₂ h => ?_
    have hordered := h.sublist hsub
    refine hordered.insert .partyFollow h₂ rfl (fun _ => Option.some_ne_none _) ?_
    intro i hi hc hr hl
    have hkind := laneOf_partyFollow.mp hl
    obtain ⟨party, hparty⟩ := Option.ne_none_iff_exists'.mp (hordered.party i hi hkind)
    -- it was not deleted, so it follows this party into this session
    rw [h₁] at hi
    have hkept := (List.mem_filter.mp hi).2
    simp [hr, hkind, hc, InviteRow.isOtherFollow, hparty] at hkept
    refine hpending (List.any_eq_true.mpr ⟨i, h₁ ▸ hi, ?_⟩)
    simp [hr, hkind, hc, InviteRow.isPendingFollow, hparty, hkept]

/-- The invitation back to a lobby comes when the earlier ones were consumed. -/
theorem moves_queueLobbyRestore (now : Time) (creatorId typeId lobbySessionId partyId queued receiverId : Nat) :
    Moves (Keeps Ordered)
      (queueLobbyRestore now creatorId typeId lobbySessionId partyId queued receiverId : StorageTx ρ Nat) := by
  intro db
  unfold queueLobbyRestore
  rw [wp_bind, wp_query]
  split
  · exact fun h => h
  · rw [wp_bind]
    refine wp_statement fun db₁ h₁ => ?_
    rw [wp_bind]
    refine wp_statement fun db₂ h₂ h => ?_
    have hordered : Ordered db₁ := h.update h₁ (fun _ => .inr rfl) (fun _ => rfl) (fun _ => rfl)
    refine hordered.insert .lobbyRestore h₂ rfl (fun hk => nomatch hk) ?_
    intro i' hi' hc hr hl
    rw [h₁] at hi'
    obtain ⟨i, hi, rfl⟩ := List.mem_map.mp hi'
    have hkind := laneOf_lobbyRestore.mp hl
    split at hc
    · nomatch hc
    · rename_i hp
      rw [if_neg hp] at hr hkind
      exact hp (decide_eq_true ⟨hr, hkind, hc⟩)

/-- The invitation by hand comes when the earlier ones were deleted. -/
theorem keeps_addInvite (now : Time) (senderId receiverId kind sessionType sessionId : Nat) (db : Database) :
    Keeps Ordered db (addInvite now senderId receiverId kind sessionType sessionId db).1 := by
  refine fun h => transaction_inv (I := Ordered) h ?_
  split
  · rename_i hkind
    rw [wp_bind]
    have hparty : Moves (Keeps Ordered) (invitingParty kind senderId : StorageTx (Option Nat) _) := by
      unfold invitingParty
      split
      · exact Moves.bind (moves_ensurePartyForLeader senderId) fun _ => Moves.pure _
      · exact Moves.pure _
    refine wp_mono (hparty db) fun partyId db₁ h₁ => ?_
    rw [wp_bind]
    refine wp_statement fun db₂ h₂ => ?_
    rw [wp_bind]
    refine wp_statement fun db₃ h₃ => ?_
    have hordered : Ordered db₃ := by
      refine (h₁ h).sublist ?_
      rw [h₃, Tables.deleteInvites, h₂]
      exact List.filter_sublist.trans List.filter_sublist
    rw [wp_bind, wp_query]
    split
    · rw [wp_bind, wp_query, wp_bind]
      refine wp_statement fun db₄ h₄ => ?_
      refine hordered.insert .manual h₄ (laneOf_manual.mpr hkind) (fun hk => ?_) ?_
      · rcases hkind with hkind | hkind <;> rw [hkind] at hk <;> nomatch hk
      · intro i hi hc hr hl
        rw [h₃] at hi
        have hkept := (List.mem_filter.mp hi).2
        simp [hr, hc, laneOf_manual.mp hl] at hkept
    · trivial
  · exact h

/-- Every part of an operation keeps the lanes. -/
theorem parts_keep : Parts (Keeps Ordered) where
  plain hf := moves_untouched fun t => (hf.sameParties t).invites
  deleteParticipants p := moves_sublist fun t => (t.shrinks_deleteParticipants (p t)).invites
  deleteUser _ := moves_untouched fun _ => rfl
  leaveParty _ := Moves.bind (moves_untouched fun _ => rfl) fun _ => moves_untouched fun _ => rfl
  disband := Moves.bind (moves_untouched fun _ => rfl) fun _ => moves_untouched fun _ => rfl
  deleteInvites _ := moves_sublist fun _ => List.filter_sublist
  consume _ p := moves_update p (fun _ => .inr rfl) (fun _ => rfl) (fun _ => rfl)
  deliver _ _ := moves_update (fun _ => _) (fun _ => .inl rfl) (fun _ => rfl) (fun _ => rfl)
  follow := moves_queuePartyFollowInvite
  restore now creatorId typeId lobbySessionId receivers :=
    Moves.bind (moves_ensurePartyForLeader creatorId) fun partyId =>
      Moves.foldlM (moves_queueLobbyRestore now creatorId typeId lobbySessionId partyId) receivers 0
  addInvite := keeps_addInvite

end Operations

/-- Every step of the store keeps the lanes. -/
theorem ordered_step (argon2 : Argon2) {db : Database} (h : Ordered db) (call : Call) : Ordered (step argon2 db call).1 :=
  parts_keep.step db argon2 call (fun _ _ _ _ => moves_untouched fun _ => rfl)
    (fun userId typeId sessionId _ => moves_joinInvitingParty call.now userId typeId sessionId)
    (fun _ _ _ => moves_update (fun _ => _) (fun _ => .inl rfl) (fun _ => rfl) (fun _ => rfl)) h

end Lanes

open Lanes

namespace Lanes

/-- The host of a lobby invites the same user twice, creates a game room, which the user is invited to follow into once the invitation
was accepted and the lobby joined, and invites the user to the room by hand as well. -/
def invitingCalls : List Call :=
  [⟨1000, .createGameSession 1000 1 "113 => 1".toList⟩, ⟨1001, .addInvite 1000 1001 2 1 2⟩, ⟨1002, .addInvite 1000 1001 2 1 2⟩,
    ⟨1003, .acceptInvite 1001 1⟩, ⟨1004, .joinGameSessionUnbounded 1001 1 2⟩,
    ⟨1005, .createGameSession 1000 1 "113 => 0".toList⟩, ⟨1006, .addInvite 1000 1001 1 1 3⟩]

end Lanes

end Scbl.Storage
