import Scbl.Lemmas.Invitations
import Scbl.Lemmas.Parties
import Scbl.Theorems.Lanes

/-!
# Following the leader

When the leader of a party creates or joins a game room, the other members are invited to follow. The step for one member drops what
invites it elsewhere and inserts an invitation only if none to this room is left. That exactly one is left, and that it is the leader's,
rests on two invariants of the store: the lane of these invitations is never occupied twice, and one to a party was sent by the leader of
the party, whose id is never handed out again.
-/

namespace Scbl.Storage

open Scbl.Lib

/-- What a user leaves when it is in a room: every other member of the party it leads has one invitation to follow it there that can
still be accepted, and the invitations to follow of everybody else are as they were. -/
structure Follows (now : Time) (leaderId sessionType sessionId : Nat) (db after : Database) : Prop where
  members : ∀ partyId, after.partyOfLeader leaderId = some partyId → ∀ m ∈ after.partyMembers, m.partyId = partyId → m.userId ≠ leaderId →
    ∃ i, after.invites.filter (fun i => i.receiver = m.userId ∧ i.kind = INVITE_KIND_PARTY_FOLLOW ∧ i.consumedAt = none ∧
        now < i.expiresAt) = [i] ∧
      i.sender = leaderId ∧ i.partyId = some partyId ∧ i.sessionType = sessionType ∧ i.sessionId = sessionId
  others : ∀ v, v ≠ leaderId →
    (∀ partyId, after.partyOfLeader leaderId = some partyId → { userId := v, partyId } ∉ after.partyMembers) →
    (after.invitesTo v).filter (·.kind = INVITE_KIND_PARTY_FOLLOW) = (db.invitesTo v).filter (·.kind = INVITE_KIND_PARTY_FOLLOW)

namespace FollowLeader

open Tables

/-- The parties are led, and an invitation to follow a party comes from its leader. -/
structure Followed (db : Database) : Prop where
  led : Led db
  sender : ∀ i ∈ db.invites, i.kind = INVITE_KIND_PARTY_FOLLOW → ∀ partyId, i.partyId = some partyId →
    partyId ≤ db.partySequence ∧ ∀ party ∈ db.parties, party.id = partyId → i.sender = party.leaderId

/-- The invitations to follow are states of earlier ones. -/
def FollowsKept (db db' : Database) : Prop :=
  ∀ i' ∈ db'.invites, i'.kind = INVITE_KIND_PARTY_FOLLOW →
    ∃ i ∈ db.invites, i.kind = INVITE_KIND_PARTY_FOLLOW ∧ i.partyId = i'.partyId ∧ i.sender = i'.sender

instance : IsPreorder Database FollowsKept where
  refl _ i hi hk := ⟨i, hi, hk, rfl, rfl⟩
  trans _ _ _ h h' i hi hk := by
    obtain ⟨i', hi', hk', hparty', hsender'⟩ := h' i hi hk
    obtain ⟨i'', hi'', hk'', hparty'', hsender''⟩ := h i' hi' hk'
    exact ⟨i'', hi'', hk'', hparty''.trans hparty', hsender''.trans hsender'⟩

/-! ## The invitations come from the leader -/

section Invariant

variable {ρ α : Type} {op : StorageOp} {db db' : Database}

/-- A new party has a new id, so that the earlier invitations are to no other party than before. -/
theorem followed_of_advance (h : Followed db) (ha : Advance op db db')
    (hnew : ∀ i' ∈ db'.invites, i'.kind = INVITE_KIND_PARTY_FOLLOW →
      (∃ i ∈ db.invites, i.kind = INVITE_KIND_PARTY_FOLLOW ∧ i.partyId = i'.partyId ∧ i.sender = i'.sender) ∨
        ∀ partyId, i'.partyId = some partyId → { id := partyId, leaderId := i'.sender } ∈ db'.parties) : Followed db' := by
  refine ⟨ha.led, fun i' hi' hk partyId hid => ?_⟩
  rcases hnew i' hi' hk with ⟨i, hi, hk', hparty, hsender⟩ | hopen
  · obtain ⟨hle, hleader⟩ := h.sender i hi hk' partyId (hparty.trans hid)
    refine ⟨le_trans hle ha.sequence, fun party hp he => ?_⟩
    rcases ha.party party hp with hp | hlt
    · rw [← hsender]
      exact hleader party hp he
    · exact absurd (he ▸ hlt) (not_lt.mpr hle)
  · have hmem := hopen partyId hid
    refine ⟨ha.led.sequence _ hmem, fun party hp he => ?_⟩
    rw [ha.led.leaders.party_unique hp hmem he]

/-- A part that only does what it can to the parties, and sends no invitation to follow. -/
theorem moves_followed (op : StorageOp) {m : StorageTx ρ α} (hadvances : Moves (Advances op) m) (hkept : Moves FollowsKept m) :
    Moves (Keeps Followed) m :=
  (hadvances.and hkept).mono fun _ _ h hf => followed_of_advance hf (h.1 hf.led) fun i' hi' hk => .inl (h.2 i' hi' hk)

/-- A statement after which the invitations are some of those before. -/
theorem kept_subset {f : Tables → Tables} (hf : ∀ t, (f t).invites ⊆ t.invites) : Moves FollowsKept (statement f : StorageTx ρ Unit) :=
  moves_statement_of fun db db' h i hi hk => ⟨i, hf db.toTables (by rw [← h]; exact hi), hk, rfl, rfl⟩

/-- An update of invitations that leaves alone what they are about. -/
theorem kept_update (p : Tables → InviteRow → Bool) {f : InviteRow → InviteRow} (hf : ∀ i, InviteRow.SameTerms i (f i)) :
    Moves FollowsKept (statement (fun t => t.updateInvites (p t) f) : StorageTx ρ Unit) := by
  refine moves_statement_of fun db db' h i' hi' hk => ?_
  rw [h] at hi'
  obtain ⟨i, hi, rfl⟩ := List.mem_map.mp hi'
  split at hk
  · rename_i hp
    rw [if_pos hp]
    exact ⟨i, hi, (hf i).kind.trans hk, (hf i).partyId, (hf i).sender⟩
  · rename_i hp
    rw [if_neg hp]
    exact ⟨i, hi, hk, rfl, rfl⟩

/-- An invitation of another kind. -/
theorem kept_insert (now : Time) (sender receiver : Nat) {kind : Nat} (sessionType sessionId : Nat) (partyId : Option Nat)
    (expiresAt : Time) (hk : kind ≠ INVITE_KIND_PARTY_FOLLOW) :
    Moves FollowsKept
      (statement (·.insertInvite now sender receiver kind sessionType sessionId partyId expiresAt) : StorageTx ρ Unit) := by
  refine moves_statement_of fun db db' h i hi hki => ?_
  rw [h] at hi
  rcases List.mem_append.mp hi with hi | hi
  · exact ⟨i, hi, hki, rfl, rfl⟩
  · rw [List.mem_singleton.mp hi] at hki
    exact absurd hki hk

theorem kept_ensurePartyForLeader (leaderId : Nat) : Moves FollowsKept (ensurePartyForLeader leaderId : StorageTx ρ Nat) := by
  refine Moves.bind (Moves.bind (Moves.select _) fun found => ?_) fun partyId =>
    Moves.bind (kept_subset fun _ => List.Subset.refl _) fun _ => Moves.pure _
  cases found with
  | none =>
    exact Moves.bind (Moves.select _) fun _ => Moves.bind (kept_subset fun _ => List.Subset.refl _) fun _ => Moves.pure _
  | some partyId => exact Moves.pure _

/-- The invitations by hand are of other kinds. -/
theorem kept_addInvite (now : Time) (senderId receiverId kind sessionType sessionId : Nat) (db : Database) :
    FollowsKept db (addInvite now senderId receiverId kind sessionType sessionId db).1 := by
  refine Moves.transaction ?_ db
  split
  · rename_i hkind
    have hk : kind ≠ INVITE_KIND_PARTY_FOLLOW := by
      rcases hkind with rfl | rfl <;> decide
    refine Moves.bind ?_ fun partyId => Moves.bind (kept_subset fun _ => List.filter_subset_self _) fun _ =>
      Moves.bind (kept_subset fun _ => List.filter_subset_self _) fun _ => Moves.bind (Moves.select _) fun hosts => ?_
    · unfold invitingParty
      split
      · exact Moves.bind (kept_ensurePartyForLeader senderId) fun _ => Moves.pure _
      · exact Moves.pure _
    · split
      · exact Moves.bind (Moves.select _) fun _ => Moves.bind (kept_insert _ _ _ _ _ _ _ hk) fun _ => Moves.pure _
      · exact Moves.rollback _
  · exact Moves.pure _

/-- The invitations back to a lobby are of another kind. -/
theorem kept_restore (now : Time) (creatorId typeId lobbySessionId : Nat) (receivers : List Nat) :
    Moves FollowsKept (do
      let partyId ← ensurePartyForLeader creatorId
      receivers.foldlM (queueLobbyRestore now creatorId typeId lobbySessionId partyId) 0 : StorageTx ρ Nat) := by
  refine Moves.bind (kept_ensurePartyForLeader creatorId) fun partyId => Moves.foldlM (fun queued receiverId => ?_) receivers 0
  refine Moves.bind (Moves.select _) fun inLobby => ?_
  split
  · exact Moves.pure _
  · exact Moves.bind (kept_update (fun _ => _) fun _ => ⟨⟨rfl, rfl, rfl⟩, rfl⟩) fun _ =>
      Moves.bind (kept_insert _ _ _ _ _ _ _ (by decide)) fun _ => Moves.pure _

/-- The invitations to follow a party are sent by its leader. -/
theorem followed_queuePartyFollowInvites (now : Time) (leaderId sessionType sessionId : Nat) :
    Moves (Keeps Followed) (queuePartyFollowInvites now leaderId sessionType sessionId : StorageTx ρ Unit) := by
  have hadvances : Moves (Advances .invalidateSessions) (queuePartyFollowInvites now leaderId sessionType sessionId : StorageTx ρ Unit) :=
    Parties.parts_advance.moves_queuePartyFollowInvites now leaderId sessionType sessionId
  -- the parties stay, and an invitation is an earlier one or the leader's to its own party
  let R : Database → Database → Prop := fun db db' => db'.parties = db.parties ∧ ∀ i' ∈ db'.invites, i'.kind = INVITE_KIND_PARTY_FOLLOW →
    (∃ i ∈ db.invites, i.kind = INVITE_KIND_PARTY_FOLLOW ∧ i.partyId = i'.partyId ∧ i.sender = i'.sender) ∨
      ∀ partyId, i'.partyId = some partyId → { id := partyId, leaderId := i'.sender } ∈ db.parties
  have hrows : Moves R (queuePartyFollowInvites now leaderId sessionType sessionId : StorageTx ρ Unit) := by
    intro db
    have hself : R db db := ⟨rfl, fun i hi hk => .inl ⟨i, hi, hk, rfl, rfl⟩⟩
    unfold queuePartyFollowInvites
    rw [wp_bind, wp_query]
    cases hparty : db.partyOfLeader leaderId with
    | none => exact hself
    | some partyId =>
      have hmem := Parties.mem_of_partyOfLeader hparty
      rw [wp_bind, wp_query]
      split
      · rw [wp_bind, wp_query]
        refine wp_mono (wp_forM (fun _ db' => R db db') ?_ hself) fun _ _ h => h
        rintro receiverId rest db' ⟨hparties, hrows⟩
        unfold queuePartyFollowInvite
        rw [wp_bind]
        refine wp_statement fun db₁ h₁ => ?_
        have hdropped : R db db₁ := by
          refine ⟨by rw [h₁]; exact hparties, fun i hi => hrows i ?_⟩
          rw [h₁] at hi
          exact List.mem_of_mem_filter hi
        rw [wp_bind, wp_query]
        split
        · exact hdropped
        · refine wp_statement fun db₂ h₂ => ⟨by rw [h₂]; exact hdropped.1, fun i hi hk => ?_⟩
          rw [h₂] at hi
          rcases List.mem_append.mp hi with hi | hi
          · exact hdropped.2 i hi hk
          · rw [List.mem_singleton.mp hi]
            refine .inr fun id hid => ?_
            rw [← Option.some.inj hid]
            exact hmem
      · exact hself
  refine (hadvances.and hrows).mono fun db db' ⟨ha, hparties, hrows⟩ hf => followed_of_advance hf (ha hf.led) ?_
  rw [hparties]
  exact hrows

/-- Every stage of an operation keeps it so. -/
theorem stages_followed : Stages (Keeps Followed) where
  plain hf := moves_followed .invalidateSessions (Parties.parts_advance.plain hf)
    (kept_subset fun t => by rw [(hf.sameParties t).invites]; exact List.Subset.refl _)
  deleteParticipants p := moves_followed .invalidateSessions (Parties.parts_advance.deleteParticipants p)
    (kept_subset fun t => (t.shrinks_deleteParticipants (p t)).invites.subset)
  deleteUser userId := moves_followed .invalidateSessions (Parties.parts_advance.deleteUser userId)
    (kept_subset fun _ => List.Subset.refl _)
  leaveParty userId := moves_followed .invalidateSessions (Parties.parts_advance.leaveParty userId)
    (Moves.bind (kept_subset fun _ => List.Subset.refl _) fun _ => kept_subset fun _ => List.Subset.refl _)
  disband := moves_followed .invalidateSessions Parties.parts_advance.disband
    (Moves.bind (kept_subset fun _ => List.Subset.refl _) fun _ => kept_subset fun _ => List.Subset.refl _)
  deleteInvites p := moves_followed .invalidateSessions (Parties.parts_advance.deleteInvites p)
    (kept_subset fun _ => List.filter_subset_self _)
  consume now p := moves_followed .invalidateSessions (Parties.parts_advance.consume now p)
    (kept_update p fun _ => ⟨⟨rfl, rfl, rfl⟩, rfl⟩)
  deliver now inviteId := moves_followed .invalidateSessions (Parties.parts_advance.deliver now inviteId)
    (kept_update (fun _ => _) fun _ => ⟨⟨rfl, rfl, rfl⟩, rfl⟩)
  follow := followed_queuePartyFollowInvites
  restore now creatorId typeId lobbySessionId receivers := moves_followed .invalidateSessions
    (Parties.parts_advance.restore now creatorId typeId lobbySessionId receivers)
    (kept_restore now creatorId typeId lobbySessionId receivers)
  addInvite now senderId receiverId kind sessionType sessionId db hf := by
    have hadvance : Advance .invalidateSessions db (addInvite now senderId receiverId kind sessionType sessionId db).1 :=
      Parties.advances_addInvite now senderId receiverId kind sessionType sessionId db hf.led
    exact followed_of_advance hf hadvance fun i hi hk => .inl (kept_addInvite now senderId receiverId kind sessionType sessionId db i hi hk)

/-- Every step of the store keeps it so. -/
theorem followed_step (argon2 : Argon2) {db : Database} (h : Followed db) (call : Call) : Followed (step argon2 db call).1 := by
  refine stages_followed.step db argon2 call (fun _ _ _ _ => ?_) (fun userId typeId sessionId _ => ?_) (fun userId inviteId _ => ?_) h
  · exact moves_followed .invalidateSessions
      (Parties.moves_invites (fun _ => rfl) (fun _ => rfl) (fun _ => List.Subset.refl _) (fun _ => rfl))
      (kept_subset fun _ => List.Subset.refl _)
  · refine moves_followed _ (Parties.moves_joinInvitingParty call.now userId typeId sessionId) (Moves.bind (Moves.select _) fun found => ?_)
    cases found with
    | none => exact Moves.pure _
    | some invite => exact Moves.bind (kept_subset fun _ => List.Subset.refl _) fun _ => kept_subset fun _ => List.Subset.refl _
  · exact moves_followed _ (Parties.moves_markAccepted call.now userId inviteId) (kept_update (fun _ => _) fun _ => ⟨⟨rfl, rfl, rfl⟩, rfl⟩)

end Invariant

/-! ## One invitation to each member -/

section Members

variable {ρ : Type} {t : Tables} {db : Database} {now : Time} {leaderId sessionType sessionId partyId receiver : Nat}

/-- The only invitation to follow that was not consumed, which can still be accepted. -/
def FollowsInto (now : Time) (leaderId sessionType sessionId partyId : Nat) (_ : Nat) (rows : List InviteRow) : Prop :=
  ∃ i, rows.filter (fun i => i.kind = INVITE_KIND_PARTY_FOLLOW ∧ i.consumedAt = none) = [i] ∧ now < i.expiresAt ∧
    i.sender = leaderId ∧ i.partyId = some partyId ∧ i.sessionType = sessionType ∧ i.sessionId = sessionId

/-- The invitations of a receiver to follow are at most one that was not consumed, name their parties, and those to the party of a
leader are the leader's. -/
structure Orderly (leaderId partyId : Nat) (rows : List InviteRow) : Prop where
  one : (rows.filter (fun i => i.kind = INVITE_KIND_PARTY_FOLLOW ∧ i.consumedAt = none)).length ≤ 1
  party : ∀ i ∈ rows, i.kind = INVITE_KIND_PARTY_FOLLOW → i.partyId ≠ none
  sender : ∀ i ∈ rows, i.kind = INVITE_KIND_PARTY_FOLLOW → i.partyId = some partyId → i.sender = leaderId

/-- A list of one item at most is the item it has. -/
theorem eq_singleton_of_mem {α : Type} {l : List α} {a : α} (h : l.length ≤ 1) (ha : a ∈ l) : l = [a] := by
  obtain ⟨b, rfl⟩ := List.length_eq_one_iff.mp (le_antisymm h (List.length_pos_of_mem ha))
  rw [List.mem_singleton.mp ha]

/-- An invitation is pending, or is to be dropped. -/
theorem isPendingFollow_of_kept {i : InviteRow} (hparty : i.partyId ≠ none)
    (h : i.isOtherFollow now partyId sessionType sessionId = false) : i.isPendingFollow now partyId sessionType sessionId = true := by
  obtain ⟨id, hid⟩ := Option.ne_none_iff_exists'.mp hparty
  simp [InviteRow.isOtherFollow, hid] at h
  simp [InviteRow.isPendingFollow, hid, h]

/-- After the step for a member it has one invitation to follow the leader. -/
theorem followsInto_invitedToFollow (h : Orderly leaderId partyId (t.invitesTo receiver)) :
    FollowsInto now leaderId sessionType sessionId partyId receiver
      ((t.invitedToFollow now leaderId sessionType sessionId partyId receiver).invitesTo receiver) := by
  have hrows : (t.followsDropped now sessionType sessionId partyId receiver).invitesTo receiver =
      (t.invitesTo receiver).filter (fun i => !(decide (i.receiver = receiver ∧ i.kind = INVITE_KIND_PARTY_FOLLOW ∧ i.consumedAt = none ∧
        i.isOtherFollow now partyId sessionType sessionId = true))) := invitesTo_deleteInvites receiver
  have hkept : ∀ i ∈ (t.followsDropped now sessionType sessionId partyId receiver).invitesTo receiver,
      i.kind = INVITE_KIND_PARTY_FOLLOW → i.consumedAt = none →
        i ∈ t.invitesTo receiver ∧ i.isPendingFollow now partyId sessionType sessionId = true := by
    intro i hi hk hc
    rw [hrows] at hi
    obtain ⟨hi, hnot⟩ := List.mem_filter.mp hi
    have hreceiver := (mem_invitesTo.mp hi).2
    refine ⟨hi, isPendingFollow_of_kept (h.party i hi hk) ?_⟩
    simpa [hreceiver, hk, hc] using hnot
  unfold invitedToFollow
  simp only []
  split
  · rename_i hpending
    obtain ⟨i, hi, hpi⟩ := List.any_eq_true.mp hpending
    obtain ⟨hreceiver, hk, hc, hp⟩ := of_decide_eq_true hpi
    have hmem := mem_invitesTo.mpr ⟨hi, hreceiver⟩
    have hone : (((t.followsDropped now sessionType sessionId partyId receiver).invitesTo receiver).filter
        (fun i => i.kind = INVITE_KIND_PARTY_FOLLOW ∧ i.consumedAt = none)).length ≤ 1 := by
      rw [hrows]
      exact le_trans (List.filter_sublist.filter _).length_le h.one
    obtain ⟨hparty, htype, hid, hexpires⟩ := of_decide_eq_true hp
    refine ⟨i, eq_singleton_of_mem hone (List.mem_filter.mpr ⟨hmem, decide_eq_true ⟨hk, hc⟩⟩), hexpires, ?_, hparty, htype, hid⟩
    exact h.sender i (hkept i hmem hk hc).1 hk hparty
  · rename_i hpending
    rw [invitesTo_insertInvite]
    have hnone : ((t.followsDropped now sessionType sessionId partyId receiver).invitesTo receiver).filter
        (fun i => i.kind = INVITE_KIND_PARTY_FOLLOW ∧ i.consumedAt = none) = [] := by
      refine List.filter_eq_nil_iff.mpr fun i hi hpi => hpending (List.any_eq_true.mpr ⟨i, (mem_invitesTo.mp hi).1, ?_⟩)
      obtain ⟨hk, hc⟩ := of_decide_eq_true hpi
      exact decide_eq_true ⟨(mem_invitesTo.mp hi).2, hk, hc, (hkept i hi hk hc).2⟩
    rw [FollowsInto, List.filter_append, hnone]
    exact ⟨_, rfl, Nat.lt_add_of_pos_right (by decide), rfl, rfl, rfl, rfl⟩

/-- Nobody else is invited. -/
theorem invitesTo_invitedToFollow_other {v : Nat} (hv : v ≠ receiver) :
    (t.invitedToFollow now leaderId sessionType sessionId partyId receiver).invitesTo v = t.invitesTo v := by
  have hdropped : (t.followsDropped now sessionType sessionId partyId receiver).invitesTo v = t.invitesTo v :=
    invitesTo_deleteInvites_other (fun i hp => (of_decide_eq_true hp).1) hv
  unfold invitedToFollow
  simp only []
  split
  · exact hdropped
  · rw [invitesTo_insertInvite_other _ _ _ _ _ _ _ hv, hdropped]

theorem sameOthers_invitedToFollow (t : Tables) (now : Time) (leaderId sessionType sessionId partyId receiver : Nat) :
    t.SameOthers (t.invitedToFollow now leaderId sessionType sessionId partyId receiver) := by
  unfold invitedToFollow
  simp only []
  split
  · exact ⟨rfl, rfl, rfl, rfl, rfl, rfl⟩
  · exact ⟨rfl, rfl, rfl, rfl, rfl, rfl⟩

/-- The other members of a party. -/
def otherMembers (t : Tables) (leaderId partyId : Nat) : List Nat :=
  orderIds ((t.partyMembers.filter (fun m => m.partyId = partyId ∧ m.userId ≠ leaderId)).map (·.userId))

theorem mem_otherMembers {v : Nat} : v ∈ otherMembers t leaderId partyId ↔ { userId := v, partyId } ∈ t.partyMembers ∧ v ≠ leaderId := by
  rw [otherMembers, mem_orderIds, List.mem_map]
  constructor
  · rintro ⟨m, hm, rfl⟩
    obtain ⟨hm, hmatch⟩ := List.mem_filter.mp hm
    obtain ⟨hparty, hne⟩ := of_decide_eq_true hmatch
    rw [← hparty]
    exact ⟨hm, hne⟩
  · rintro ⟨hm, hne⟩
    exact ⟨_, List.mem_filter.mpr ⟨hm, decide_eq_true ⟨rfl, hne⟩⟩, rfl⟩

/-- When the leader takes part in the session every other member is invited to follow it there. -/
theorem wp_followLeader (hparty : db.partyOfLeader leaderId = some partyId) (hjoined : { gameId := sessionId, userId := leaderId } ∈ db.participants)
    (horderly : ∀ v ∈ otherMembers db.toTables leaderId partyId, Orderly leaderId partyId (db.invitesTo v)) :
    wp (queuePartyFollowInvites now leaderId sessionType sessionId : StorageTx ρ Unit)
      (fun _ db' => Queued (FollowsInto now leaderId sessionType sessionId partyId) (otherMembers db.toTables leaderId partyId)
        db.toTables db'.toTables) (fun _ => False) db := by
  have hleader : db.HasUser leaderId := db.references.leader _ (Parties.mem_of_partyOfLeader hparty)
  have hnodup : (otherMembers db.toTables leaderId partyId).Nodup :=
    (List.perm_insertionSort _ _).nodup_iff.mpr (db.keys.partyMembers.sublist (List.filter_sublist.map _))
  unfold queuePartyFollowInvites
  rw [wp_bind, wp_query, hparty]
  have hin : db.isParticipant sessionId leaderId = true := decide_eq_true hjoined
  simp only []
  rw [wp_bind, wp_query, if_pos hin, wp_bind, wp_query]
  change wp ((otherMembers db.toTables leaderId partyId).forM (queuePartyFollowInvite now leaderId sessionType sessionId partyId) :
    StorageTx ρ PUnit) _ _ db
  refine wp_forM_done (fun done (db' : Database) => Queued (FollowsInto now leaderId sessionType sessionId partyId) done db.toTables
    db'.toTables) ?_ (.nil _ _)
  intro done v rest db' hl hqueued
  have hmem : v ∈ otherMembers db.toTables leaderId partyId := hl ▸ List.mem_append_right _ List.mem_cons_self
  have hnew : v ∉ done := by
    rw [← hl] at hnodup
    exact fun hd => (List.nodup_append.mp hnodup).2.2 v hd v List.mem_cons_self rfl
  have hreceiver : db.HasUser v := db.references.member _ (mem_otherMembers.mp hmem).1
  refine wp_mono (wp_queuePartyFollowInvite now sessionType sessionId partyId (hqueued.same.hasUser hleader)
    (hqueued.same.hasUser hreceiver)) fun _ db'' h => ?_
  rw [h]
  refine hqueued.snoc hnew (sameOthers_invitedToFollow _ _ _ _ _ _ _) (fun w hw => invitesTo_invitedToFollow_other hw)
    (followsInto_invitedToFollow ?_)
  rw [hqueued.others v hnew]
  exact horderly v hmem

/-- The invariants of the store hold for the invitations of every receiver. -/
theorem orderly_invitesTo (hordered : Lanes.Ordered db) (hfollowed : Followed db) (hparty : { id := partyId, leaderId } ∈ db.parties)
    (v : Nat) : Orderly leaderId partyId (db.invitesTo v) where
  one := by
    rw [invitesTo, List.filter_filter]
    refine hordered.exclusive.length_le_one (v, .partyFollow) fun i _ hi => ?_
    obtain ⟨hmatch, hreceiver⟩ := Bool.and_eq_true_iff.mp hi
    obtain ⟨hk, hc⟩ := of_decide_eq_true hmatch
    have hlane : Lanes.laneOf i.kind = some .partyFollow := Lanes.laneOf_partyFollow.mpr hk
    rw [Lanes.slot, if_pos hc, hlane, of_decide_eq_true hreceiver]
    rfl
  party i hi := hordered.party i (mem_invitesTo.mp hi).1
  sender i hi hk hid := (hfollowed.sender i (mem_invitesTo.mp hi).1 hk partyId hid).2 _ hparty rfl

/-- From tables in which everybody else's invitations are those at the start, the leader is followed. -/
theorem wp_follows {start : Database} (hordered : Lanes.Ordered start) (hfollowed : Followed start)
    (hparties : db.parties ⊆ start.parties) (hinvites : ∀ v, v ≠ leaderId → db.invitesTo v = start.invitesTo v)
    (hjoined : { gameId := sessionId, userId := leaderId } ∈ db.participants) :
    wp (queuePartyFollowInvites now leaderId sessionType sessionId : StorageTx ρ Unit)
      (fun _ db' => Follows now leaderId sessionType sessionId start db') (fun _ => False) db := by
  cases hparty : db.partyOfLeader leaderId with
  | none =>
    unfold queuePartyFollowInvites
    rw [wp_bind, wp_query, hparty]
    refine ⟨fun partyId hid => ?_, fun v hne _ => by rw [hinvites v hne]⟩
    rw [hparty] at hid
    cases hid
  | some partyId =>
    have hmem := Parties.mem_of_partyOfLeader hparty
    have horderly : ∀ v ∈ otherMembers db.toTables leaderId partyId, Orderly leaderId partyId (db.invitesTo v) := by
      intro v hv
      rw [hinvites v (mem_otherMembers.mp hv).2]
      exact orderly_invitesTo hordered hfollowed (hparties hmem) v
    refine wp_mono (wp_followLeader hparty hjoined horderly) fun _ db' hqueued => ?_
    have hsame : db'.partyOfLeader leaderId = some partyId := by
      rw [← hparty, partyOfLeader, partyOfLeader, hqueued.same.parties]
    constructor
    · intro id hid m hm hmid hne
      obtain rfl := Option.some.inj (hsame.symm.trans hid)
      rw [hqueued.same.partyMembers] at hm
      obtain ⟨i, hone, hexpires, hsender, hid', htype, hsession⟩ :=
        hqueued.reached m.userId (mem_otherMembers.mpr ⟨by rw [← hmid]; exact hm, hne⟩)
      refine ⟨i, ?_, hsender, hid', htype, hsession⟩
      have hsplit : db'.invites.filter (fun i => i.receiver = m.userId ∧ i.kind = INVITE_KIND_PARTY_FOLLOW ∧ i.consumedAt = none ∧
          now < i.expiresAt) = ((db'.invitesTo m.userId).filter (fun i => i.kind = INVITE_KIND_PARTY_FOLLOW ∧ i.consumedAt = none)).filter
          (fun i => now < i.expiresAt) := by
        rw [invitesTo, List.filter_filter, List.filter_filter]
        refine List.filter_congr fun i _ => ?_
        simp only [Bool.decide_and, Bool.and_comm, Bool.and_left_comm]
      rw [hsplit, hone]
      exact List.filter_eq_self.mpr fun j hj => by rw [List.mem_singleton.mp hj]; exact decide_eq_true hexpires
    · intro v hne hv
      have houtside := hv partyId hsame
      rw [hqueued.same.partyMembers] at houtside
      rw [hqueued.others v fun hin => houtside (mem_otherMembers.mp hin).1, hinvites v hne]

/-- The leader creates a room. -/
theorem follows_createGameSession (hordered : Lanes.Ordered db) (hfollowed : Followed db) (now : Time) (userId typeId : Nat)
    {attributes : Text} (hroom : isGameRoomAttributes attributes = true) (hid : db.nextGameSessionId < 2 ^ 32) {r : Nat}
    (hok : (createGameSession now userId typeId attributes db).2 = .ok r) :
    Follows now userId typeId r db (createGameSession now userId typeId attributes db).1 := by
  refine transaction_of_wp (P := fun res : Database × Except StorageError Nat => ∀ r, res.2 = .ok r →
    Follows now userId typeId r db res.1) ?_ r hok
  rw [wp_bind, wp_query, wp_bind]
  refine wp_statement_failing (fun _ r h => nomatch h) fun db₁ h₁ => ?_
  rw [wp_bind]
  refine wp_statement_failing (fun _ r h => nomatch h) fun db₂ h₂ => ?_
  have hsame : db.SameParties db₂.toTables := by
    rw [h₂, h₁]
    exact ((PlainStatement.insertGameSession typeId userId attributes).sameParties db.toTables).trans
      ((PlainStatement.insertParticipant db.nextGameSessionId userId).sameParties _)
  have hjoined : { gameId := db.nextGameSessionId, userId } ∈ db₂.participants := by
    rw [h₂]
    exact mem_insertParticipant _ _ _
  have hinvites : ∀ v, v ≠ userId → db₂.invitesTo v = db.invitesTo v := by
    intro v _
    rw [invitesTo, invitesTo, hsame.invites]
  rw [Nat.mod_eq_of_lt hid, if_pos hroom, wp_bind]
  refine wp_weaken (wp_follows hordered hfollowed (by rw [hsame.parties]; exact List.Subset.refl _) hinvites hjoined)
    (fun _ db₃ h₃ => ?_) fun _ he => he.elim
  rw [wp_pure]
  rintro r ⟨⟩
  exact h₃

/-- Moving to the party of an invitation opens no party, and leaves invitations and participants alone. -/
theorem wp_joinInvitingParty {E : Abort StorageError ρ → Prop} (he : ∀ e, E (.failed e)) (now : Time) (userId typeId sessionId : Nat) :
    wp (joinInvitingParty now userId typeId sessionId : StorageTx ρ Unit)
      (fun _ db' => db'.parties ⊆ db.parties ∧ db'.invites = db.invites ∧ db'.participants = db.participants) E db := by
  unfold joinInvitingParty
  rw [wp_bind, wp_query]
  cases db.acceptedLobbyInvite now userId typeId sessionId with
  | none => exact ⟨List.Subset.refl _, rfl, rfl⟩
  | some found =>
    simp only [wp_bind]
    refine wp_statement_failing he fun db₁ h₁ => wp_statement_failing he fun db₂ h₂ => ?_
    rw [h₂, Tables.upsertPartyMember, h₁]
    exact ⟨List.filter_subset_self _, rfl, rfl⟩

/-- The leader joins a room. -/
theorem follows_joinGameSessionUnbounded (hordered : Lanes.Ordered db) (hfollowed : Followed db) (now : Time) (userId typeId sessionId : Nat)
    {g : GameSessionRow} (hg : db.activeSession typeId sessionId = some g) (hroom : g.attributes.any isGameRoomAttributes = true)
    (hok : (joinGameSessionUnbounded now userId typeId sessionId db).2 = .ok true) :
    Follows now userId typeId sessionId db (joinGameSessionUnbounded now userId typeId sessionId db).1 := by
  obtain ⟨attributes, hattributes, hroom⟩ : ∃ attributes, g.attributes = some attributes ∧ isGameRoomAttributes attributes = true := by
    simpa [Option.any_eq_true] using hroom
  refine transaction_of_wp (P := fun res : Database × Except StorageError Bool => res.2 = .ok true →
    Follows now userId typeId sessionId db res.1) ?_ hok
  rw [wp_bind, wp_query, hg]
  simp only [hattributes, decodeText]
  rw [wp_bind, wp_pure, wp_bind]
  refine wp_statement_failing (fun _ h => by cases h) fun db₁ h₁ => ?_
  have hsame : db.SameParties db₁.toTables := by
    rw [h₁]
    exact (PlainStatement.insertParticipant sessionId userId).sameParties db.toTables
  rw [wp_bind]
  refine wp_mono (wp_joinInvitingParty (fun _ h => by cases h) now userId typeId sessionId) fun _ db₂ h₂ => ?_
  rw [wp_bind]
  obtain ⟨hparties, hinvites, hparticipants⟩ := h₂
  refine wp_statement_failing (fun _ h => by cases h) fun db₃ h₃ => ?_
  -- only invitations of the user itself are consumed
  have hothers : ∀ v, v ≠ userId → db₃.invitesTo v = db.invitesTo v := by
    intro v hv
    have hconsumed : db₃.invitesTo v = db₂.invitesTo v := by
      rw [h₃]
      refine invitesTo_updateInvites_other (fun _ => rfl) (fun i hi => ?_) hv
      exact (of_decide_eq_true hi).1
    rw [hconsumed, invitesTo, invitesTo, hinvites, hsame.invites]
  have hsubset : db₃.parties ⊆ db.parties := by
    rw [h₃]
    exact hsame.parties ▸ hparties
  have hjoined : { gameId := sessionId, userId } ∈ db₃.participants := by
    have hkept : db₃.participants = db₁.participants := by rw [h₃]; exact hparticipants
    rw [hkept, h₁]
    exact mem_insertParticipant _ _ _
  rw [if_pos hroom, wp_bind]
  exact wp_weaken (wp_follows hordered hfollowed hsubset hothers hjoined) (fun _ db₄ h₄ _ => h₄) fun _ he => he.elim

end Members

end FollowLeader

open FollowLeader

namespace FollowLeader

/-- The user 1000 leads a party with the user 1001, who opens a room of its own. -/
def leadingCalls : List Call :=
  [⟨1000, .createGameSession 1000 1 "113 => 1".toList⟩, ⟨1001, .addInvite 1000 1001 2 1 2⟩, ⟨1002, .acceptInvite 1001 1⟩,
    ⟨1003, .joinGameSessionUnbounded 1001 1 2⟩, ⟨1004, .createGameSession 1001 1 "113 => 0".toList⟩]

/-- The user 1000, whose party the user 1002 has joined, accepts the invitation of the user 1001 to its lobby, which then becomes a
room. -/
def absorbedCalls : List Call :=
  [⟨1000, .registerUrls 1001 ["prudp:/address=127.0.0.1".toList]⟩, ⟨1001, .createGameSession 1000 1 "113 => 1".toList⟩,
    ⟨1002, .addInvite 1000 1002 2 1 2⟩, ⟨1003, .acceptInvite 1002 1⟩, ⟨1004, .joinGameSessionUnbounded 1002 1 2⟩,
    ⟨1005, .createGameSession 1001 1 "113 => 1".toList⟩, ⟨1006, .addInvite 1001 1000 2 1 3⟩, ⟨1007, .acceptInvite 1000 1⟩,
    ⟨1008, .updateGameSession 1 3 "113 => 0".toList⟩]

end FollowLeader

end Scbl.Storage
