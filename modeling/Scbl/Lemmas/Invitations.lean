import Scbl.Lemmas.Sessions

/-!
# Invitations, receiver by receiver

The two loops that queue invitations work on one receiver at a time. What a step does to the invitations of its receiver is told from
what it leaves of the others', so that after the loop each receiver listed has been reached once and nobody else at all (`Queued`). Both
steps succeed whatever is in the tables.
-/

namespace Scbl.Storage

open Scbl.Lib

namespace Tables

/-- The invitations for a receiver. -/
def invitesTo (t : Tables) (receiver : Nat) : List InviteRow := t.invites.filter (·.receiver = receiver)

/-- The tables a queued invitation leaves alone. -/
structure SameOthers (t t' : Tables) : Prop where
  users : t'.users = t.users
  gameSessions : t'.gameSessions = t.gameSessions
  participants : t'.participants = t.participants
  stationUrls : t'.stationUrls = t.stationUrls
  parties : t'.parties = t.parties
  partyMembers : t'.partyMembers = t.partyMembers

theorem SameOthers.refl (t : Tables) : t.SameOthers t := ⟨rfl, rfl, rfl, rfl, rfl, rfl⟩

theorem SameOthers.trans {t t' t'' : Tables} (h : t.SameOthers t') (h' : t'.SameOthers t'') : t.SameOthers t'' :=
  ⟨h'.1.trans h.1, h'.2.trans h.2, h'.3.trans h.3, h'.4.trans h.4, h'.5.trans h.5, h'.6.trans h.6⟩

theorem SameOthers.hasUser {t t' : Tables} (h : t.SameOthers t') {userId : Nat} (hu : t.HasUser userId) : t'.HasUser userId := by
  unfold HasUser
  rw [h.users]
  exact hu

variable {t : Tables} {v receiver : Nat}

theorem mem_invitesTo {i : InviteRow} : i ∈ t.invitesTo v ↔ i ∈ t.invites ∧ i.receiver = v := by
  rw [invitesTo, List.mem_filter, decide_eq_true_eq]

/-- Updating invitations updates those of their receivers. -/
theorem invitesTo_updateInvites {p : InviteRow → Bool} {f : InviteRow → InviteRow} (hf : ∀ i, (f i).receiver = i.receiver) (v : Nat) :
    (t.updateInvites p f).invitesTo v = (t.invitesTo v).map (fun i => if p i then f i else i) := by
  rw [invitesTo, invitesTo, updateInvites, List.filter_map]
  congr 1
  refine List.filter_congr fun i _ => ?_
  simp only [Function.comp_apply]
  split
  · rw [hf]
  · rfl

/-- Updating the invitations of one receiver leaves those of another. -/
theorem invitesTo_updateInvites_other {p : InviteRow → Bool} {f : InviteRow → InviteRow} (hf : ∀ i, (f i).receiver = i.receiver)
    (hp : ∀ i, p i = true → i.receiver = receiver) (hv : v ≠ receiver) : (t.updateInvites p f).invitesTo v = t.invitesTo v := by
  rw [invitesTo_updateInvites hf]
  refine (List.map_congr_left fun i hi => if_neg fun hpi => hv ?_).trans (List.map_id _)
  rw [← hp i hpi, (mem_invitesTo.mp hi).2]

/-- Deleting invitations deletes those of their receivers. -/
theorem invitesTo_deleteInvites {p : InviteRow → Bool} (v : Nat) :
    (t.deleteInvites p).invitesTo v = (t.invitesTo v).filter (fun i => !p i) := by
  rw [invitesTo, invitesTo, deleteInvites, List.filter_filter, List.filter_filter]
  exact List.filter_congr fun i _ => Bool.and_comm _ _

/-- Deleting the invitations of one receiver leaves those of another. -/
theorem invitesTo_deleteInvites_other {p : InviteRow → Bool} (hp : ∀ i, p i = true → i.receiver = receiver) (hv : v ≠ receiver) :
    (t.deleteInvites p).invitesTo v = t.invitesTo v := by
  rw [invitesTo_deleteInvites]
  refine List.filter_eq_self.mpr fun i hi => ?_
  cases hpi : p i with
  | false => rfl
  | true => exact absurd ((mem_invitesTo.mp hi).2.symm.trans (hp i hpi)) hv

/-- The row an insertion writes. -/
def insertedInvite (t : Tables) (now : Time) (sender receiver kind sessionType sessionId : Nat) (partyId : Option Nat)
    (expiresAt : Time) : InviteRow :=
  { rowid := t.nextInviteId, sender, receiver, created := now, sessionType, sessionId, expiresAt, kind, partyId }

/-- The receiver of an inserted invitation has it besides the earlier ones. -/
theorem invitesTo_insertInvite (now : Time) (sender receiver kind sessionType sessionId : Nat) (partyId : Option Nat) (expiresAt : Time) :
    (t.insertInvite now sender receiver kind sessionType sessionId partyId expiresAt).invitesTo receiver =
      t.invitesTo receiver ++ [t.insertedInvite now sender receiver kind sessionType sessionId partyId expiresAt] := by
  rw [invitesTo, invitesTo, insertInvite, List.filter_append]
  congr 1
  exact List.filter_eq_self.mpr fun i hi => by rw [List.mem_singleton.mp hi]; exact decide_eq_true rfl

/-- An inserted invitation is for its receiver only. -/
theorem invitesTo_insertInvite_other (now : Time) (sender kind sessionType sessionId : Nat) (partyId : Option Nat) (expiresAt : Time)
    (hv : v ≠ receiver) :
    (t.insertInvite now sender receiver kind sessionType sessionId partyId expiresAt).invitesTo v = t.invitesTo v := by
  rw [invitesTo, invitesTo, insertInvite, List.filter_append]
  refine (congrArg _ (List.filter_eq_nil_iff.mpr fun i hi => ?_)).trans (List.append_nil _)
  rw [List.mem_singleton.mp hi]
  simpa using Ne.symm hv

end Tables

/-- The invitations of the receivers done meet a condition, and everybody else's, and all other tables, are as they were. -/
structure Queued (P : Nat → List InviteRow → Prop) (done : List Nat) (t t' : Tables) : Prop where
  same : t.SameOthers t'
  reached : ∀ v ∈ done, P v (t'.invitesTo v)
  others : ∀ v, v ∉ done → t'.invitesTo v = t.invitesTo v

namespace Queued

variable {P : Nat → List InviteRow → Prop} {done : List Nat} {t t' t'' : Tables} {receiver : Nat}

theorem nil (P : Nat → List InviteRow → Prop) (t : Tables) : Queued P [] t t :=
  ⟨.refl t, fun _ hv => (nomatch hv), fun _ _ => rfl⟩

/-- One more receiver is reached. -/
theorem snoc (h : Queued P done t t') (hnew : receiver ∉ done) (hsame : t'.SameOthers t'')
    (hothers : ∀ v, v ≠ receiver → t''.invitesTo v = t'.invitesTo v) (hreached : P receiver (t''.invitesTo receiver)) :
    Queued P (done ++ [receiver]) t t'' where
  same := h.same.trans hsame
  reached := by
    intro v hv
    rcases List.mem_append.mp hv with hv | hv
    · rw [hothers v fun he => hnew (he ▸ hv)]
      exact h.reached v hv
    · rw [List.mem_singleton.mp hv]
      exact hreached
  others := by
    intro v hv
    rw [hothers v fun he => hv (List.mem_append_right _ (List.mem_singleton.mpr he))]
    exact h.others v fun hd => hv (List.mem_append_left _ hd)

end Queued

/-! ## One invitation -/

namespace Tables

/-- A receiver is invited back to a lobby: its earlier invitations of that kind are consumed, and a new one is inserted. -/
def invitedBack (t : Tables) (now : Time) (creatorId typeId lobbySessionId partyId receiverId : Nat) : Tables :=
  (t.updateInvites (fun i => i.receiver = receiverId ∧ i.kind = INVITE_KIND_LOBBY_RESTORE ∧ i.consumedAt = none)
    ({ · with consumedAt := some now })).insertInvite now creatorId receiverId INVITE_KIND_LOBBY_RESTORE typeId lobbySessionId
    (some partyId) (now + 60)

/-- The invitations to follow another party, into another session, or an expired one, are dropped. -/
def followsDropped (t : Tables) (now : Time) (sessionType sessionId partyId receiverId : Nat) : Tables :=
  t.deleteInvites (fun i => i.receiver = receiverId ∧ i.kind = INVITE_KIND_PARTY_FOLLOW ∧ i.consumedAt = none ∧
    i.isOtherFollow now partyId sessionType sessionId)

/-- An invitation to follow the party into the session is pending. -/
def pendingFollow (t : Tables) (now : Time) (sessionType sessionId partyId receiverId : Nat) : Bool :=
  t.invites.any (fun i => i.receiver = receiverId ∧ i.kind = INVITE_KIND_PARTY_FOLLOW ∧ i.consumedAt = none ∧
    i.isPendingFollow now partyId sessionType sessionId)

/-- A receiver is invited to follow the party. -/
def invitedToFollow (t : Tables) (now : Time) (leaderId sessionType sessionId partyId receiverId : Nat) : Tables :=
  let t' := t.followsDropped now sessionType sessionId partyId receiverId
  if t'.pendingFollow now sessionType sessionId partyId receiverId then t'
  else t'.insertInvite now leaderId receiverId INVITE_KIND_PARTY_FOLLOW sessionType sessionId (some partyId) (now + 300)

end Tables

section Wp

variable {ρ : Type} {db : Database}

/-- Inviting a participant back to the lobby succeeds. -/
theorem wp_queueLobbyRestore (now : Time) {creatorId receiverId : Nat} (typeId lobbySessionId partyId queued : Nat)
    (hs : db.HasUser creatorId) (hr : db.HasUser receiverId) :
    wp (queueLobbyRestore now creatorId typeId lobbySessionId partyId queued receiverId : StorageTx ρ Nat)
      (fun n db' => if db.isParticipant lobbySessionId receiverId then n = queued ∧ db' = db
        else n = queued + 1 ∧ db'.toTables = db.invitedBack now creatorId typeId lobbySessionId partyId receiverId)
      (fun _ => False) db := by
  unfold queueLobbyRestore
  rw [wp_bind, wp_query]
  split
  · exact ⟨rfl, rfl⟩
  · rw [wp_bind]
    refine wp_statement_ok (db.integrity.updateInvites _ (fun _ => rfl) (fun _ => rfl) (fun _ => rfl)) fun db₁ h₁ => ?_
    have husers : db₁.users = db.users := by rw [h₁]; rfl
    have huser : ∀ u, db.HasUser u → db₁.HasUser u := by
      intro u hu
      unfold Tables.HasUser
      rw [husers]
      exact hu
    rw [wp_bind]
    refine wp_statement_ok (db₁.integrity.insertInvite (huser _ hs) (huser _ hr) ..) fun db₂ h₂ => ?_
    rw [wp_pure, h₂, h₁]
    exact ⟨rfl, rfl⟩

/-- Inviting a member of the party to follow it succeeds. -/
theorem wp_queuePartyFollowInvite (now : Time) {leaderId receiverId : Nat} (sessionType sessionId partyId : Nat)
    (hs : db.HasUser leaderId) (hr : db.HasUser receiverId) :
    wp (queuePartyFollowInvite now leaderId sessionType sessionId partyId receiverId : StorageTx ρ Unit)
      (fun _ db' => db'.toTables = db.invitedToFollow now leaderId sessionType sessionId partyId receiverId) (fun _ => False) db := by
  unfold queuePartyFollowInvite
  rw [wp_bind]
  refine wp_statement_ok ((Tables.shrinks_deleteInvites _ _).integrity db.integrity) fun db₁ h₁ => ?_
  have hdropped : db₁.toTables = db.followsDropped now sessionType sessionId partyId receiverId := h₁
  rw [wp_bind, wp_query]
  unfold Tables.invitedToFollow
  split
  · rename_i hpending
    rw [hdropped] at hpending
    rw [wp_pure, hdropped]
    exact (if_pos hpending).symm
  · rename_i hpending
    rw [hdropped] at hpending
    have huser : ∀ u, db.HasUser u → db₁.HasUser u := fun u hu => hdropped ▸ hu
    refine wp_statement_ok (db₁.integrity.insertInvite (huser _ hs) (huser _ hr) ..) fun db₂ h₂ => ?_
    rw [h₂, hdropped]
    exact (if_neg hpending).symm

end Wp

end Scbl.Storage
