import Scbl.Lemmas.Executions

/-!
# Parties and their members

What the operations can do to parties. In a database that is `Led` every party has its leader among its members, and an invitation
to a party comes from the leader of the party, whose id is never handed out again. An operation keeps it so, hands out no party id
twice, makes nobody a member of a party but its leader, and marks no invitation as accepted (`Advance`), unless it is the join or the
acceptance that does so.
-/

namespace Scbl.Storage

open Scbl.Lib

/-- The kinds of invitations that admit to a party. -/
def InviteRow.isPartyKind (i : InviteRow) : Prop := i.kind = INVITE_KIND_LOBBY_PARTY ∨ i.kind = INVITE_KIND_LOBBY_RESTORE

/-- Two rows are states of one invitation, to the same party. -/
structure InviteRow.SameTerms (i j : InviteRow) : Prop extends i.SameInvite j where
  partyId : i.partyId = j.partyId

theorem InviteRow.SameTerms.refl (i : InviteRow) : i.SameTerms i := ⟨.refl i, rfl⟩

theorem InviteRow.SameTerms.trans {i j k : InviteRow} (h : i.SameTerms j) (h' : j.SameTerms k) : i.SameTerms k :=
  ⟨h.toSameInvite.trans h'.toSameInvite, h.partyId.trans h'.partyId⟩

/-- An invitation of a leader admits a user to a party. -/
structure InviteRow.Admits (i : InviteRow) (leaderId : Nat) (m : PartyMemberRow) : Prop where
  kind : i.isPartyKind
  sender : i.sender = leaderId
  receiver : i.receiver = m.userId
  party : i.partyId = some m.partyId

/-- The kind stays with an invitation. -/
theorem InviteRow.SameTerms.isPartyKind {i j : InviteRow} (h : i.SameTerms j) (hj : j.isPartyKind) : i.isPartyKind := by
  unfold InviteRow.isPartyKind
  rw [h.kind]
  exact hj

/-- Every state of an invitation admits the same user to the same party. -/
theorem InviteRow.SameTerms.admits {i j : InviteRow} (h : i.SameTerms j) {leaderId : Nat} {m : PartyMemberRow}
    (hj : j.Admits leaderId m) : i.Admits leaderId m where
  kind := h.isPartyKind hj.kind
  sender := h.sender.trans hj.sender
  receiver := h.receiver.trans hj.receiver
  party := h.partyId.trans hj.party

namespace Tables

/-- A user is a member of a party. -/
theorem mem_upsertPartyMember {t : Tables} {userId partyId : Nat} {m : PartyMemberRow} :
    m ∈ (t.upsertPartyMember userId partyId).partyMembers ↔
      m = { userId, partyId } ∨ (m ∈ t.partyMembers ∧ m.userId ≠ userId) := by
  simp only [upsertPartyMember]
  split
  · rename_i hin
    rw [List.mem_map]
    constructor
    · rintro ⟨m', hm', rfl⟩
      split
      · rename_i he
        exact .inl (by rw [← he])
      · rename_i hne
        exact .inr ⟨hm', hne⟩
    · rintro (rfl | ⟨hm, hne⟩)
      · obtain ⟨m', hm', he⟩ := List.mem_map.mp hin
        exact ⟨m', hm', by rw [if_pos he, ← he]⟩
      · exact ⟨m, hm, if_neg hne⟩
  · rename_i hnew
    rw [List.mem_append, List.mem_singleton]
    constructor
    · rintro (hm | rfl)
      · exact .inr ⟨hm, fun he => hnew (List.mem_map.mpr ⟨m, hm, he⟩)⟩
      · exact .inl rfl
    · rintro (rfl | ⟨hm, -⟩)
      · exact .inr rfl
      · exact .inl hm

/-- The members that are left when parties are deleted. -/
theorem mem_deleteParties {t : Tables} {p : PartyRow → Bool} {m : PartyMemberRow} :
    m ∈ (t.deleteParties p).partyMembers ↔ m ∈ t.partyMembers ∧ ∀ party ∈ t.parties, party.id = m.partyId → p party = false := by
  simp only [deleteParties, List.mem_filter, Bool.not_eq_true', List.any_eq_false, Bool.and_eq_true, beq_iff_eq, not_and]
  refine and_congr_right fun _ => forall₂_congr fun party _ => ?_
  cases p party <;> simp

/-- Party ids are unique, and every party has its leader among its members. -/
structure Leaders (t : Tables) : Prop where
  ids : (t.parties.map (·.id)).Nodup
  member : ∀ party ∈ t.parties, { userId := party.leaderId, partyId := party.id } ∈ t.partyMembers

/-- Two parties with one id are one. -/
theorem Leaders.party_unique {t : Tables} (h : t.Leaders) {party party' : PartyRow} (hp : party ∈ t.parties) (hp' : party' ∈ t.parties)
    (he : party.id = party'.id) : party = party' :=
  List.inj_on_of_nodup_map h.ids hp hp' he

/-- A user leaves the party it is in and the one it leads. -/
theorem Leaders.leave {t : Tables} (h : t.Leaders) (userId : Nat) :
    ((t.deleteParties (·.leaderId = userId)).deletePartyMembers (·.userId = userId)).Leaders := by
  constructor
  · exact h.ids.sublist (List.filter_sublist.map _)
  · intro party hparty
    obtain ⟨hparty, hne⟩ := List.mem_filter.mp hparty
    have hne : party.leaderId ≠ userId := by simpa using hne
    refine List.mem_filter.mpr ⟨mem_deleteParties.mpr ⟨h.member party hparty, fun party' hparty' he => ?_⟩, by simpa using hne⟩
    rw [h.party_unique hparty' hparty he]
    simpa using hne

/-- Deleting a participant keeps the leaders. -/
theorem Leaders.deleteParticipants {t : Tables} (h : t.Leaders) (p : ParticipantRow → Bool) : (t.deleteParticipants p).Leaders := by
  unfold Tables.deleteParticipants
  generalize t.participants.filter p = rows
  induction rows generalizing t with
  | nil => exact h
  | cons row rows ih =>
    refine ih ?_
    have hrow : ({ t with participants := t.participants.filter (· ≠ row) } : Tables).Leaders := ⟨h.ids, h.member⟩
    unfold deleteParticipant
    rcases partyMemberLeaveLobby_cases { t with participants := t.participants.filter (· ≠ row) } row with he | he
    · rw [he]; exact hrow
    · rw [he]; exact hrow.leave row.userId

/-- Deleting a user keeps the leaders. -/
theorem Leaders.deleteUser {t : Tables} (h : t.Leaders) (userId : Nat) : (t.deleteUser userId).Leaders := by
  constructor
  · exact h.ids.sublist (List.filter_sublist.map _)
  · intro party hparty
    obtain ⟨hparty, hne⟩ := List.mem_filter.mp hparty
    have hne : party.leaderId ≠ userId := by simpa using hne
    refine List.mem_filter.mpr ⟨h.member party hparty, ?_⟩
    simp only [Bool.and_eq_true, decide_eq_true_eq, Bool.not_eq_true', List.any_eq_false, beq_iff_eq, not_and]
    refine ⟨hne, fun party' hparty' hl he => hne ?_⟩
    rw [← h.party_unique hparty' hparty he]
    exact hl

end Tables

/-- Every party has its leader among its members, and an invitation to a party comes from the leader of the party, whose id is not
handed out again. -/
structure Led (db : Database) : Prop where
  member : ∀ party ∈ db.parties, { userId := party.leaderId, partyId := party.id } ∈ db.partyMembers
  sequence : ∀ party ∈ db.parties, party.id ≤ db.partySequence
  invite : ∀ i ∈ db.invites, i.isPartyKind → ∀ partyId, i.partyId = some partyId →
    partyId ≤ db.partySequence ∧ ∀ party ∈ db.parties, party.id = partyId → i.sender = party.leaderId

theorem Led.leaders {db : Database} (h : Led db) : db.Leaders := ⟨db.keys.parties, h.member⟩

/-- What an operation, or a part of it, can do to the parties. -/
structure Advance (op : StorageOp) (db db' : Database) : Prop where
  led : Led db'
  sequence : db.partySequence ≤ db'.partySequence
  party : ∀ party ∈ db'.parties, party ∈ db.parties ∨ db.partySequence < party.id
  member : ∀ party ∈ db'.parties, ∀ m ∈ db'.partyMembers, m.partyId = party.id → m.userId ≠ party.leaderId →
    (party ∈ db.parties ∧ m ∈ db.partyMembers) ∨
      ∃ i ∈ db.invites, i.acceptedAt ≠ none ∧ i.Admits party.leaderId m ∧
        op = .joinGameSessionUnbounded m.userId i.sessionType i.sessionId
  accepted : ∀ i' ∈ db'.invites, i'.acceptedAt ≠ none →
    (∃ i ∈ db.invites, i.acceptedAt ≠ none ∧ i.SameTerms i') ∨ op = .acceptInvite i'.receiver i'.rowid

/-- From a database whose parties are led an operation, or a part of it, only does what it can. -/
def Advances (op : StorageOp) (db db' : Database) : Prop := Led db → Advance op db db'

namespace Advance

variable {op : StorageOp} {db db' : Database}

theorem refl (h : Led db) : Advance op db db where
  led := h
  sequence := le_refl _
  party _ hp := .inl hp
  member _ hp _ hm _ _ := .inl ⟨hp, hm⟩
  accepted i hi ha := .inl ⟨i, hi, ha, .refl i⟩

theorem trans {db'' : Database} (h : Advance op db db') (h' : Advance op db' db'') : Advance op db db'' where
  led := h'.led
  sequence := le_trans h.sequence h'.sequence
  party party hp := (h'.party party hp).elim (h.party party) (fun hlt => .inr (lt_of_le_of_lt h.sequence hlt))
  member party hp m hm he hne := by
    rcases h'.member party hp m hm he hne with ⟨hp, hm⟩ | ⟨i, hi, ha, hadmits, hop⟩
    · exact h.member party hp m hm he hne
    · rcases h.accepted i hi ha with ⟨i', hi', ha', hs⟩ | hop'
      · refine .inr ⟨i', hi', ha', hs.admits hadmits, ?_⟩
        rw [hs.sessionType, hs.sessionId]
        exact hop
      · rw [hop'] at hop
        nomatch hop
  accepted i hi ha := by
    rcases h'.accepted i hi ha with ⟨i', hi', ha', hs'⟩ | hop
    · rcases h.accepted i' hi' ha' with ⟨i'', hi'', ha'', hs''⟩ | hop
      · exact .inl ⟨i'', hi'', ha'', hs''.trans hs'⟩
      · rw [hs'.receiver, hs'.rowid] at hop
        exact .inr hop
    · exact .inr hop

end Advance

instance (op : StorageOp) : IsPreorder Database (Advances op) where
  refl _ := .refl
  trans _ _ _ h h' hl := (h hl).trans (h' (h hl).led)

/-! ## The statements -/

namespace Advance

variable {op : StorageOp} {db db' : Database} (hl : Led db)

include hl

/-- Parties, members and invitations were deleted at most, and the parties that are left have their leaders. -/
theorem of_subset (hparties : db'.parties ⊆ db.parties) (hmembers : db'.partyMembers ⊆ db.partyMembers)
    (hinvites : db'.invites ⊆ db.invites) (hsequence : db'.partySequence = db.partySequence) (hleaders : db'.Leaders) :
    Advance op db db' where
  led := {
    member := hleaders.member
    sequence := fun party hp => hsequence ▸ hl.sequence party (hparties hp)
    invite := fun i hi hk partyId hid => by
      obtain ⟨hle, hsender⟩ := hl.invite i (hinvites hi) hk partyId hid
      exact ⟨hsequence ▸ hle, fun party hp => hsender party (hparties hp)⟩ }
  sequence := hsequence.ge
  party _ hp := .inl (hparties hp)
  member _ hp _ hm _ _ := .inl ⟨hparties hp, hmembers hm⟩
  accepted i hi ha := .inl ⟨i, hinvites hi, ha, .refl i⟩

/-- The parties stayed as they were, and the invitations there are have led and are accepted as they should. -/
theorem of_sameParties (hparties : db'.parties = db.parties) (hmembers : db'.partyMembers = db.partyMembers)
    (hsequence : db'.partySequence = db.partySequence)
    (hinvite : ∀ i ∈ db'.invites, i.isPartyKind → ∀ partyId, i.partyId = some partyId →
      partyId ≤ db.partySequence ∧ ∀ party ∈ db.parties, party.id = partyId → i.sender = party.leaderId)
    (haccepted : ∀ i' ∈ db'.invites, i'.acceptedAt ≠ none →
      (∃ i ∈ db.invites, i.acceptedAt ≠ none ∧ i.SameTerms i') ∨ op = .acceptInvite i'.receiver i'.rowid) : Advance op db db' where
  led := {
    member := by rw [hparties, hmembers]; exact hl.member
    sequence := by rw [hparties, hsequence]; exact hl.sequence
    invite := by rw [hparties, hsequence]; exact hinvite }
  sequence := hsequence.ge
  party _ hp := .inl (hparties ▸ hp)
  member := by
    rw [hparties, hmembers]
    intro party hp m hm _ _
    exact .inl ⟨hp, hm⟩
  accepted := haccepted

/-- Invitations were deleted at most. -/
theorem of_invites (hparties : db'.parties = db.parties) (hmembers : db'.partyMembers = db.partyMembers)
    (hinvites : db'.invites ⊆ db.invites) (hsequence : db'.partySequence = db.partySequence) : Advance op db db' :=
  of_sameParties hl hparties hmembers hsequence (fun i hi => hl.invite i (hinvites hi))
    fun i hi ha => .inl ⟨i, hinvites hi, ha, .refl i⟩

/-- Invitations were updated, and none was marked as accepted but by the operation that does so. -/
theorem of_update {p : InviteRow → Bool} {f : InviteRow → InviteRow} (hdb : db'.toTables = db.updateInvites p f)
    (hterms : ∀ i, InviteRow.SameTerms i (f i))
    (haccepted : ∀ i, p i = true → (f i).acceptedAt = i.acceptedAt ∨ op = .acceptInvite i.receiver i.rowid) :
    Advance op db db' := by
  have hrow : ∀ i' ∈ db'.invites, ∃ i ∈ db.invites, i.SameTerms i' ∧
      (i'.acceptedAt = i.acceptedAt ∨ op = .acceptInvite i.receiver i.rowid) := by
    intro i' hi'
    rw [hdb] at hi'
    obtain ⟨i, hi, rfl⟩ := List.mem_map.mp hi'
    refine ⟨i, hi, ?_⟩
    split
    · rename_i hp
      exact ⟨hterms i, haccepted i hp⟩
    · exact ⟨.refl i, .inl rfl⟩
  refine of_sameParties hl (by rw [hdb]; rfl) (by rw [hdb]; rfl) (by rw [hdb]; rfl) ?_ ?_
  · intro i' hi' hk partyId hid
    obtain ⟨i, hi, hs, -⟩ := hrow i' hi'
    rw [← hs.sender]
    exact hl.invite i hi (hs.isPartyKind hk) partyId (hs.partyId.trans hid)
  · intro i' hi' ha
    obtain ⟨i, hi, hs, he | hop⟩ := hrow i' hi'
    · exact .inl ⟨i, hi, he ▸ ha, hs⟩
    · rw [hs.receiver, hs.rowid] at hop
      exact .inr hop

/-- An invitation was inserted, to a party only by its leader. -/
theorem of_insert {now expiresAt : Time} {sender receiver kind sessionType sessionId : Nat} {partyId : Option Nat}
    (hdb : db'.toTables = db.insertInvite now sender receiver kind sessionType sessionId partyId expiresAt)
    (hparty : kind = INVITE_KIND_LOBBY_PARTY ∨ kind = INVITE_KIND_LOBBY_RESTORE →
      ∀ id ∈ partyId, { id, leaderId := sender } ∈ db.parties) : Advance op db db' := by
  let row : InviteRow :=
    { rowid := db.nextInviteId, sender, receiver, created := now, sessionType, sessionId, expiresAt, kind, partyId }
  have hrows : ∀ i ∈ db'.invites, i ∈ db.invites ∨ i = row := by
    intro i hi
    rw [hdb] at hi
    exact (List.mem_append.mp hi).imp_right List.mem_singleton.mp
  refine of_sameParties hl (by rw [hdb]; rfl) (by rw [hdb]; rfl) (by rw [hdb]; rfl) ?_ ?_
  · intro i hi hk id hid
    rcases hrows i hi with hi | rfl
    · exact hl.invite i hi hk id hid
    · have hmem := hparty hk id hid
      refine ⟨hl.sequence _ hmem, fun party hp he => ?_⟩
      rw [hl.leaders.party_unique hp hmem he]
  · intro i hi ha
    rcases hrows i hi with hi | rfl
    · exact .inl ⟨i, hi, ha, .refl i⟩
    · exact absurd rfl ha

end Advance

/-! ## The parts of the operations -/

namespace Parties

variable {ρ : Type} {op : StorageOp}

/-- A statement that leaves the parties alone and deletes invitations at most. -/
theorem moves_invites {f : Tables → Tables} (hparties : ∀ t, (f t).parties = t.parties)
    (hmembers : ∀ t, (f t).partyMembers = t.partyMembers) (hinvites : ∀ t, (f t).invites ⊆ t.invites)
    (hsequence : ∀ t, (f t).partySequence = t.partySequence) : Moves (Advances op) (statement f : StorageTx ρ Unit) :=
  moves_statement_of fun db db' h hl =>
    .of_invites hl (by rw [h, hparties]) (by rw [h, hmembers]) (by rw [h]; exact hinvites db.toTables) (by rw [h, hsequence])

theorem moves_plain {f : Tables → Tables} (hf : PlainStatement f) : Moves (Advances op) (statement f : StorageTx ρ Unit) :=
  moves_invites (fun t => (hf.sameParties t).parties) (fun t => (hf.sameParties t).partyMembers)
    (fun t => by rw [(hf.sameParties t).invites]; exact List.Subset.refl _) (fun t => (hf.sameParties t).partySequence)

theorem moves_deleteInvites (p : Tables → InviteRow → Bool) :
    Moves (Advances op) (statement (fun t => t.deleteInvites (p t)) : StorageTx ρ Unit) :=
  moves_invites (fun _ => rfl) (fun _ => rfl) (fun _ => List.filter_subset_self _) (fun _ => rfl)

theorem partySequence_deleteParticipants (t : Tables) (p : ParticipantRow → Bool) :
    (t.deleteParticipants p).partySequence = t.partySequence :=
  Tables.rows_deleteParticipants (f := (·.partySequence)) (fun _ _ _ _ => rfl) t p

theorem moves_deleteParticipants (p : Tables → ParticipantRow → Bool) :
    Moves (Advances op) (statement (fun t => t.deleteParticipants (p t)) : StorageTx ρ Unit) := by
  refine moves_statement_of fun db db' h hl => ?_
  have hs := db.shrinks_deleteParticipants (p db.toTables)
  rw [← h] at hs
  refine .of_subset hl hs.parties.subset hs.partyMembers.subset hs.invites.subset ?_ ?_
  · rw [h]
    exact partySequence_deleteParticipants _ _
  · rw [h]
    exact hl.leaders.deleteParticipants _

theorem moves_deleteUser (userId : Nat) : Moves (Advances op) (statement (·.deleteUser userId) : StorageTx ρ Unit) := by
  refine moves_statement_of fun db db' h hl => ?_
  refine .of_subset hl ?_ ?_ ?_ ?_ ?_ <;> rw [h]
  · exact List.filter_subset_self _
  · exact List.filter_subset_self _
  · exact List.Subset.refl _
  · rfl
  · exact hl.leaders.deleteUser userId

/-- Parties and members are deleted together. -/
theorem moves_deletePair (p : PartyRow → Bool) (q : PartyMemberRow → Bool)
    (hleaders : ∀ t : Tables, t.Leaders → ((t.deleteParties p).deletePartyMembers q).Leaders) :
    Moves (Advances op) (do statement (·.deleteParties p); statement (·.deletePartyMembers q) : StorageTx ρ Unit) := by
  intro db
  rw [wp_bind]
  refine wp_statement fun db₁ h₁ => wp_statement fun db₂ h₂ hl => ?_
  rw [h₁] at h₂
  refine .of_subset hl ?_ ?_ ?_ ?_ ?_ <;> rw [h₂]
  · exact List.filter_subset_self _
  · exact List.Subset.trans (List.filter_subset_self _) (List.filter_subset_self _)
  · exact List.Subset.refl _
  · rfl
  · exact hleaders _ hl.leaders

theorem moves_update (p : Tables → InviteRow → Bool) {f : InviteRow → InviteRow} (hterms : ∀ i, InviteRow.SameTerms i (f i))
    (haccepted : ∀ t i, p t i = true → (f i).acceptedAt = i.acceptedAt ∨ op = .acceptInvite i.receiver i.rowid) :
    Moves (Advances op) (statement (fun t => t.updateInvites (p t) f) : StorageTx ρ Unit) :=
  moves_statement_of fun db _ h hl => .of_update hl h hterms (haccepted db.toTables)

theorem moves_queuePartyFollowInvite (now : Time) (leaderId sessionType sessionId partyId receiverId : Nat) :
    Moves (Advances op)
      (queuePartyFollowInvite now leaderId sessionType sessionId partyId receiverId : StorageTx ρ Unit) := by
  refine Moves.bind (moves_deleteInvites fun _ => _) fun _ => Moves.bind (Moves.select _) fun pending => ?_
  split
  · exact Moves.pure _
  · refine moves_statement_of fun db db' h hl => .of_insert hl h fun hk => ?_
    rcases hk with hk | hk <;> nomatch hk

/-- The party of a leader. -/
theorem mem_of_partyOfLeader {t : Tables} {leaderId partyId : Nat} (h : t.partyOfLeader leaderId = some partyId) :
    { id := partyId, leaderId } ∈ t.parties := by
  obtain ⟨party, hparty, rfl⟩ := Option.map_eq_some_iff.mp h
  have hleader : party.leaderId = leaderId := by simpa using List.find?_some hparty
  rw [← hleader]
  exact List.mem_of_find?_eq_some hparty

/-- A party of a leader was found or inserted: a new one has an id that was never handed out. -/
structure Opened (leaderId : Nat) (db db' : Database) : Prop where
  members : db'.partyMembers = db.partyMembers
  invites : db'.invites = db.invites
  sequence : db.partySequence ≤ db'.partySequence
  party : ∀ party ∈ db'.parties, party ∈ db.parties ∨
    (party.leaderId = leaderId ∧ db.partySequence < party.id ∧ ¬ db.HasParty party.id ∧ party.id ≤ db'.partySequence)

theorem wp_findOrInsertParty (db : Database) (leaderId : Nat) :
    wp (findOrInsertParty leaderId : StorageTx ρ Nat)
      (fun partyId db' => Opened leaderId db db' ∧ { id := partyId, leaderId } ∈ db'.parties) (fun _ => True) db := by
  unfold findOrInsertParty
  rw [wp_bind, wp_query]
  cases hfound : db.partyOfLeader leaderId with
  | some partyId => exact ⟨⟨rfl, rfl, le_refl _, fun _ hp => .inl hp⟩, mem_of_partyOfLeader hfound⟩
  | none =>
    simp only [wp_bind, wp_query]
    refine wp_statement fun db' h => ?_
    rw [wp_pure]
    have hsequence : db'.partySequence = db.nextPartyId := by rw [h]; rfl
    have hlast : db.partySequence < db.nextPartyId := Nat.lt_succ_of_le (le_max_left _ _)
    refine ⟨⟨by rw [h]; rfl, by rw [h]; rfl, hsequence ▸ hlast.le, fun party hp => ?_⟩, ?_⟩
    · rw [h] at hp
      refine (List.mem_append.mp hp).imp_right fun hp => ?_
      rw [List.mem_singleton.mp hp]
      refine ⟨rfl, hlast, fun hex => ?_, hsequence.ge⟩
      exact absurd (le_trans (le_maxId hex) (le_max_right _ _)) (Nat.not_succ_le_self _)
    · rw [h]
      exact List.mem_append_right _ List.mem_cons_self

/-- Whoever opens a party is its leader and a member. -/
theorem wp_ensurePartyForLeader (op : StorageOp) {db : Database} (hl : Led db) (leaderId : Nat) :
    wp (ensurePartyForLeader leaderId : StorageTx ρ Nat)
      (fun partyId db' => Advance op db db' ∧ { id := partyId, leaderId } ∈ db'.parties) (fun _ => True) db := by
  unfold ensurePartyForLeader
  rw [wp_bind]
  refine wp_mono (wp_findOrInsertParty db leaderId) fun partyId db₁ h₁ => ?_
  obtain ⟨hopened, hparty⟩ := h₁
  rw [wp_bind]
  refine wp_statement fun db₂ h₂ => ?_
  rw [wp_pure]
  have hparties : db₂.parties = db₁.parties := by rw [h₂]; rfl
  have hsequence : db₂.partySequence = db₁.partySequence := by rw [h₂]; rfl
  have hinvites : db₂.invites = db.invites := by rw [h₂]; exact hopened.invites
  have hmembers : ∀ m, m ∈ db₂.partyMembers ↔
      m = { userId := leaderId, partyId } ∨ (m ∈ db.partyMembers ∧ m.userId ≠ leaderId) := by
    intro m
    rw [h₂, Tables.mem_upsertPartyMember, hopened.members]
  rw [← hparties] at hparty
  have hcases := hopened.party
  rw [← hparties, ← hsequence] at hcases
  have hle : db.partySequence ≤ db₂.partySequence := hsequence ▸ hopened.sequence
  have hled : Led db₂ := by
    constructor
    · intro party hp
      rw [hmembers]
      by_cases he : party.leaderId = leaderId
      · -- a leader has one party
        have hone : party = { id := partyId, leaderId } := List.inj_on_of_nodup_map db₂.keys.leaders hp hparty he
        rw [hone]
        exact .inl rfl
      · rcases hcases party hp with hp | ⟨hleader, -⟩
        · exact .inr ⟨hl.member party hp, he⟩
        · exact absurd hleader he
    · intro party hp
      rcases hcases party hp with hp | ⟨-, -, -, hlast⟩
      · exact le_trans (hl.sequence party hp) hle
      · exact hlast
    · intro i hi hk id hid
      rw [hinvites] at hi
      obtain ⟨hid, hsender⟩ := hl.invite i hi hk id hid
      refine ⟨le_trans hid hle, ?_⟩
      intro party hp he
      rcases hcases party hp with hp | ⟨-, hnew, -⟩
      · exact hsender party hp he
      · exact absurd (he ▸ hnew) (not_lt.mpr hid)
  refine ⟨⟨hled, hle, ?_, ?_, ?_⟩, hparty⟩
  · intro party hp
    exact (hcases party hp).imp_right fun h => h.2.1
  · intro party hp m hm he hne
    rcases (hmembers m).mp hm with rfl | ⟨hm, -⟩
    · -- the new member is the leader
      have hone : party = { id := partyId, leaderId } := List.inj_on_of_nodup_map db₂.keys.parties hp hparty he.symm
      rw [hone] at hne
      exact absurd rfl hne
    · rcases hcases party hp with hp | ⟨-, -, hnew, -⟩
      · exact .inl ⟨hp, hm⟩
      · exact absurd (he ▸ db.references.memberParty m hm) hnew
  · intro i hi ha
    exact .inl ⟨i, hinvites ▸ hi, ha, .refl i⟩

/-- The invitations back to a lobby are sent by the leader whose party they name. -/
theorem moves_restore (now : Time) (creatorId typeId lobbySessionId : Nat) (receivers : List Nat) :
    Moves (Advances op) (do
      let partyId ← ensurePartyForLeader creatorId
      receivers.foldlM (queueLobbyRestore now creatorId typeId lobbySessionId partyId) 0 : StorageTx ρ Nat) := by
  refine Moves.of_inv fun db hl => ?_
  rw [wp_bind]
  refine wp_mono (wp_ensurePartyForLeader op hl creatorId) fun partyId db₁ h₁ => ?_
  refine wp_mono (wp_foldlM (fun _ _ db' => Advance op db db' ∧ { id := partyId, leaderId := creatorId } ∈ db'.parties) ?_ h₁)
    (fun _ _ h' => h'.1)
  rintro receiverId rest queued db' ⟨hadvance, hparty⟩
  unfold queueLobbyRestore
  rw [wp_bind, wp_query]
  split
  · exact ⟨hadvance, hparty⟩
  · rw [wp_bind]
    refine wp_statement fun db₂ h₂ => ?_
    have hupdate : Advance op db' db₂ :=
      .of_update hadvance.led h₂ (fun _ => ⟨⟨rfl, rfl, rfl⟩, rfl⟩) (fun _ _ => .inl rfl)
    have hparty₂ : { id := partyId, leaderId := creatorId } ∈ db₂.parties := by rw [h₂]; exact hparty
    rw [wp_bind]
    refine wp_statement fun db₃ h₃ => ?_
    refine ⟨(hadvance.trans hupdate).trans (.of_insert hupdate.led h₃ fun _ id hid => ?_), by rw [h₃]; exact hparty₂⟩
    rw [← Option.some.inj hid]
    exact hparty₂

/-- An invitation to a lobby is sent by the leader whose party it names. -/
theorem advances_addInvite (now : Time) (senderId receiverId kind sessionType sessionId : Nat) (db : Database) :
    Advances op db (addInvite now senderId receiverId kind sessionType sessionId db).1 := by
  intro hl
  refine transaction_inv (I := Advance op db) (.refl hl) ?_
  split
  · rw [wp_bind]
    have hinviting : wp (invitingParty kind senderId : StorageTx (Option Nat) _) (fun partyId db' => Advance op db db' ∧
        (∀ id ∈ partyId, { id, leaderId := senderId } ∈ db'.parties)) (fun _ => True) db := by
      unfold invitingParty
      split
      · rw [wp_bind]
        refine wp_mono (wp_ensurePartyForLeader op hl senderId) fun partyId db' h' => ⟨h'.1, fun id hid => ?_⟩
        rw [← Option.some.inj hid]
        exact h'.2
      · exact ⟨.refl hl, fun _ hid => nomatch hid⟩
    refine wp_mono hinviting fun partyId db₁ h₁ => ?_
    obtain ⟨hadvance, hparty⟩ := h₁
    rw [wp_bind]
    refine wp_statement fun db₂ h₂ => ?_
    rw [wp_bind]
    refine wp_statement fun db₃ h₃ => ?_
    rw [Tables.deleteInvites, h₂] at h₃
    have hdelete : Advance op db₁ db₃ :=
      .of_invites hadvance.led (by rw [h₃]; rfl) (by rw [h₃]; rfl)
        (by rw [h₃]; exact List.Subset.trans (List.filter_subset_self _) (List.filter_subset_self _)) (by rw [h₃]; rfl)
    rw [wp_bind, wp_query]
    split
    · rw [wp_bind, wp_query, wp_bind]
      refine wp_statement fun db₄ h₄ => ?_
      refine (hadvance.trans hdelete).trans (.of_insert hdelete.led h₄ fun _ id hid => ?_)
      rw [h₃]
      exact hparty id hid
    · trivial
  · exact .refl hl

/-- The parts of the operations advance the parties. -/
theorem parts_advance : Parts (Advances op) where
  plain := moves_plain
  deleteParticipants := moves_deleteParticipants
  deleteUser := moves_deleteUser
  leaveParty userId := moves_deletePair _ _ fun _ h => h.leave userId
  disband := moves_deletePair _ _ fun t h =>
    ⟨h.ids.sublist (List.filter_sublist.map _), fun _ hp => by simp [Tables.deletePartyMembers, Tables.deleteParties] at hp⟩
  deleteInvites := moves_deleteInvites
  consume _ p := moves_update p (fun _ => ⟨⟨rfl, rfl, rfl⟩, rfl⟩) (fun _ _ _ => .inl rfl)
  deliver _ _ := moves_update (fun _ => _) (fun _ => ⟨⟨rfl, rfl, rfl⟩, rfl⟩) (fun _ _ _ => .inl rfl)
  follow := moves_queuePartyFollowInvite
  restore := moves_restore
  addInvite := advances_addInvite

/-- The invitation a join consumes names a party and admits the user to it. -/
theorem acceptedLobbyInvite_eq_some {t : Tables} {now : Time} {userId typeId sessionId partyId leaderId : Nat}
    (h : t.acceptedLobbyInvite now userId typeId sessionId = some (partyId, leaderId)) :
    ∃ i ∈ t.invites, i.acceptedAt ≠ none ∧ i.Admits leaderId { userId, partyId } ∧ i.sessionType = typeId ∧
      i.sessionId = sessionId := by
  obtain ⟨i, hnewest, hparty⟩ := Option.bind_eq_some_iff.mp h
  obtain ⟨id, hid, he⟩ := Option.map_eq_some_iff.mp hparty
  obtain ⟨rfl, rfl⟩ := Prod.mk.inj he
  obtain ⟨hi, hmatch⟩ := List.mem_filter.mp (mem_of_newest hnewest)
  obtain ⟨hreceiver, hkind, htype, hsession, -, haccepted, -⟩ := of_decide_eq_true hmatch
  exact ⟨i, hi, haccepted, ⟨hkind, rfl, hreceiver, hid⟩, htype, hsession⟩

/-- A join makes the user a member of the party it was invited to, and of no other. -/
theorem moves_joinInvitingParty (now : Time) (userId typeId sessionId : Nat) :
    Moves (Advances (.joinGameSessionUnbounded userId typeId sessionId))
      (joinInvitingParty now userId typeId sessionId : StorageTx ρ Unit) := by
  refine Moves.of_inv fun db hl => ?_
  unfold joinInvitingParty
  rw [wp_bind, wp_query]
  cases hfound : db.acceptedLobbyInvite now userId typeId sessionId with
  | none => exact .refl hl
  | some found =>
    obtain ⟨partyId, leaderId⟩ := found
    obtain ⟨i, hi, haccepted, hadmits, htype, hsession⟩ := acceptedLobbyInvite_eq_some hfound
    simp only [wp_bind]
    refine wp_statement fun db₁ h₁ => wp_statement fun db₂ h₂ => ?_
    have hinvites : db₂.invites = db.invites := by rw [h₂, Tables.upsertPartyMember, h₁]; rfl
    have hsequence : db₂.partySequence = db.partySequence := by rw [h₂, Tables.upsertPartyMember, h₁]; rfl
    have hparties : ∀ party ∈ db₂.parties, party ∈ db.parties ∧ (party.leaderId = userId → party.id = partyId) := by
      intro party hp
      rw [h₂, Tables.upsertPartyMember, h₁] at hp
      obtain ⟨hp, hkept⟩ := List.mem_filter.mp hp
      exact ⟨hp, by simpa [imp_iff_not_or] using hkept⟩
    have hmembers : ∀ m, m ∈ db₂.partyMembers ↔ m = { userId, partyId } ∨ (m ∈ db₁.partyMembers ∧ m.userId ≠ userId) := by
      intro m
      rw [h₂, Tables.mem_upsertPartyMember]
    have hled : Led db₂ := by
      constructor
      · intro party hp
        obtain ⟨hp, hown⟩ := hparties party hp
        rw [hmembers]
        by_cases hleader : party.leaderId = userId
        · exact .inl (by rw [hleader, hown hleader])
        · refine .inr ⟨?_, hleader⟩
          rw [h₁, Tables.mem_deleteParties]
          refine ⟨hl.member party hp, ?_⟩
          intro party' hp' he
          rw [hl.leaders.party_unique hp' hp he]
          simp [hleader]
      · intro party hp
        rw [hsequence]
        exact hl.sequence party (hparties party hp).1
      · intro i hi hk id hid
        rw [hsequence]
        obtain ⟨hle, hsender⟩ := hl.invite i (hinvites ▸ hi) hk id hid
        exact ⟨hle, fun party hp => hsender party (hparties party hp).1⟩
    refine ⟨hled, hsequence.ge, fun party hp => .inl (hparties party hp).1, ?_, ?_⟩
    · intro party hp m hm he hne
      have hp := (hparties party hp).1
      rcases (hmembers m).mp hm with rfl | ⟨hm, -⟩
      · -- the party it was invited to is led by the sender
        have hsender := (hl.invite i hi hadmits.kind partyId hadmits.party).2 party hp he.symm
        refine .inr ⟨i, hi, haccepted, ⟨hadmits.kind, hsender, hadmits.receiver, hadmits.party⟩, ?_⟩
        rw [htype, hsession]
      · rw [h₁, Tables.mem_deleteParties] at hm
        exact .inl ⟨hp, hm.1⟩
    · intro i hi ha
      exact .inl ⟨i, hinvites ▸ hi, ha, .refl i⟩

/-- An acceptance marks an invitation of its user. -/
theorem moves_markAccepted (now : Time) (userId inviteId : Nat) :
    Moves (Advances (.acceptInvite userId inviteId)) (markAccepted now userId inviteId : StorageTx ρ Unit) := by
  refine moves_update (fun _ => _) (fun _ => ⟨⟨rfl, rfl, rfl⟩, rfl⟩) fun _ i hi => .inr ?_
  obtain ⟨hid, hreceiver, -⟩ := of_decide_eq_true hi
  rw [hid, hreceiver]

end Parties

/-- From a database whose parties are led every operation does only what it can. -/
theorem advance_step (argon2 : Argon2) {db : Database} (h : Led db) (call : Call) :
    Advance call.op db (step argon2 db call).1 := by
  refine Parties.parts_advance.step db argon2 call (fun _ _ _ _ => ?_) (fun userId typeId sessionId hop => ?_)
    (fun userId inviteId hop => ?_) h
  · exact Parties.moves_invites (fun _ => rfl) (fun _ => rfl) (fun _ => List.Subset.refl _) (fun _ => rfl)
  · rw [hop]
    exact Parties.moves_joinInvitingParty call.now userId typeId sessionId
  · rw [hop]
    exact Parties.moves_markAccepted call.now userId inviteId

end Scbl.Storage
