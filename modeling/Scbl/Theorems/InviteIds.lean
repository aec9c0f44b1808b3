import Scbl.Theorems.Host

/-!
# What an invitation id denotes

An invitation is known to the players by the row id of its row, and the row id of a deleted row can be given to another invitation:
a new row gets the id after the largest one in the table. Whatever a receiver accepts under an id that was delivered to it is the
invitation that was delivered, as long as no step in between inserts another invitation for that receiver under that id.
-/

namespace Scbl.Storage

open Scbl.Lib

/-- What an invitation is about. -/
def Invite.identity (i : Invite) : InviteIdentity :=
  { sender := i.sender, kind := i.kind, sessionType := i.sessionType, sessionId := i.sessionId }

/-- The rows a call inserts into `invites`. -/
def Call.insertedInvites (argon2 : Argon2) (db : Database) (call : Call) : List InviteRow :=
  (step argon2 db call).1.inviteLog.drop db.inviteLog.length

/-- A call inserts another invitation for the receiver of an invitation under its id. -/
def Call.Reissues (argon2 : Argon2) (db : Database) (call : Call) (invite : Invite) : Prop :=
  ∃ row ∈ call.insertedInvites argon2 db,
    row.rowid = invite.id ∧ row.receiver = invite.receiver ∧ row.identity ≠ invite.identity

instance (argon2 : Argon2) (db : Database) (call : Call) (invite : Invite) : Decidable (call.Reissues argon2 db invite) :=
  inferInstanceAs (Decidable (∃ row ∈ _, _))

namespace InviteIds

/-- Rows are inserted into `invites` and logged, deleted, or updated without changing what they are about. -/
structure Descends (t t' : Tables) : Prop where
  log : t.inviteLog <+: t'.inviteLog
  rows : ∀ i' ∈ t'.invites,
    (∃ i ∈ t.invites, i.SameInvite i') ∨ ∃ i ∈ t'.inviteLog.drop t.inviteLog.length, i.SameInvite i'

/-- No row is inserted when the log stays and the rows are among those that were there. -/
theorem Descends.of_subset {t t' : Tables} (hlog : t'.inviteLog = t.inviteLog) (h : t'.invites ⊆ t.invites) : Descends t t' :=
  ⟨hlog ▸ List.prefix_refl _, fun i hi => .inl ⟨i, h hi, .refl i⟩⟩

theorem Descends.refl (t : Tables) : Descends t t := .of_subset rfl (List.Subset.refl _)

theorem Descends.trans {t t' t'' : Tables} (h : Descends t t') (h' : Descends t' t'') : Descends t t'' := by
  refine ⟨h.log.trans h'.log, fun i'' hi'' => ?_⟩
  have hlater : ∀ i ∈ t''.inviteLog.drop t'.inviteLog.length, i ∈ t''.inviteLog.drop t.inviteLog.length := by
    intro i hi
    rw [← Nat.add_sub_cancel' h.log.length_le, ← List.drop_drop] at hi
    exact List.mem_of_mem_drop hi
  have hearlier : ∀ i ∈ t'.inviteLog.drop t.inviteLog.length, i ∈ t''.inviteLog.drop t.inviteLog.length := by
    intro i hi
    obtain ⟨added, hadded⟩ := h'.log
    rw [← hadded, List.drop_append_of_le_length h.log.length_le]
    exact List.mem_append_left _ hi
  rcases h'.rows i'' hi'' with ⟨i', hi', hs'⟩ | ⟨i, hi, hs⟩
  · rcases h.rows i' hi' with ⟨i, hi, hs⟩ | ⟨i, hi, hs⟩
    · exact .inl ⟨i, hi, hs.trans hs'⟩
    · exact .inr ⟨i, hearlier i hi, hs.trans hs'⟩
  · exact .inr ⟨i, hlater i hi, hs⟩

/-- Every statement is of this kind. -/
theorem descends_statement {f : Tables → Tables} (hf : Statement f) (t : Tables) : Descends t (f t) := by
  cases hf with
  | side hside =>
    cases hside with
    | party hparty =>
      cases hparty with
      | insertInvite now sender receiver kind sessionType sessionId partyId expiresAt =>
        refine ⟨List.prefix_append _ _, fun i hi => ?_⟩
        rcases List.mem_append.mp hi with hi | hi
        · exact .inl ⟨i, hi, .refl i⟩
        · refine .inr ⟨i, ?_, .refl i⟩
          simp only [Tables.insertInvite]
          rw [List.drop_left]
          exact hi
      | updateInvites p f h =>
        refine ⟨List.prefix_refl _, fun i' hi' => .inl ?_⟩
        obtain ⟨i, hi, rfl⟩ := List.mem_map.mp hi'
        refine ⟨i, hi, ?_⟩
        split
        · exact h i
        · exact .refl i
      | deleteInvites p => exact .of_subset rfl (List.filter_subset_self _)
      | _ => exact .of_subset rfl (List.Subset.refl _)
    | insertStationUrl userId url =>
      simp only [Tables.insertStationUrl]
      split
      · exact .refl t
      · exact .of_subset rfl (List.Subset.refl _)
    | _ => exact .of_subset rfl (List.Subset.refl _)
  | insertParticipant gameId userId =>
    simp only [Tables.insertParticipant]
    split
    · exact .refl t
    · exact .of_subset rfl (List.Subset.refl _)
  | deleteParticipants p =>
    have hs := t.shrinks_deleteParticipants (p t)
    exact .of_subset hs.inviteLog hs.invites.subset
  | _ => exact .of_subset rfl (List.Subset.refl _)

/-- The rows for the receiver of an invitation under its id are about the invitation. -/
def Denotes (invite : Invite) (t : Tables) : Prop :=
  ∀ i ∈ t.invites, i.rowid = invite.id → i.receiver = invite.receiver → i.identity = invite.identity

/-- What an id denotes stays as long as no other invitation is inserted under it. -/
theorem Denotes.descends {invite : Invite} {t t' : Tables} (h : Denotes invite t) (hd : Descends t t')
    (hnew : ∀ row ∈ t'.inviteLog.drop t.inviteLog.length, row.rowid = invite.id → row.receiver = invite.receiver →
      row.identity = invite.identity) : Denotes invite t' := by
  intro i' hi' hid hr
  rcases hd.rows i' hi' with ⟨i, hi, hs⟩ | ⟨i, hi, hs⟩
  · rw [← hs.identity]
    exact h i hi (hs.rowid.trans hid) (hs.receiver.trans hr)
  · rw [← hs.identity]
    exact hnew i hi (hs.rowid.trans hid) (hs.receiver.trans hr)

/-- Deleting rows changes nothing about what an id denotes. -/
theorem Denotes.deleteInvites {invite : Invite} {t : Tables} (h : Denotes invite t) (p : InviteRow → Bool) :
    Denotes invite (t.deleteInvites p) :=
  fun i hi => h i (List.mem_filter.mp hi).1

/-- Updating rows changes nothing about what an id denotes. -/
theorem Denotes.updateInvites {invite : Invite} {t : Tables} (h : Denotes invite t) (p : InviteRow → Bool)
    {f : InviteRow → InviteRow} (hf : ∀ i, InviteRow.SameInvite i (f i)) : Denotes invite (t.updateInvites p f) := by
  intro i' hi' hid hr
  obtain ⟨i, hi, rfl⟩ := List.mem_map.mp hi'
  split at hid
  · rename_i hp
    rw [if_pos hp] at hr ⊢
    rw [← (hf i).identity]
    exact h i hi ((hf i).rowid.trans hid) ((hf i).receiver.trans hr)
  · rename_i hp
    rw [if_neg hp] at hr ⊢
    exact h i hi hid hr

/-- A call that does not reissue the id keeps what it denotes. -/
theorem denotes_step (argon2 : Argon2) {invite : Invite} {db : Database} {call : Call} (h : Denotes invite db.toTables)
    (hc : ¬ call.Reissues argon2 db invite) : Denotes invite (step argon2 db call).1.toTables := by
  have hd : Descends db.toTables (step argon2 db call).1.toTables :=
    (executes_step argon2 db call).rel .refl (fun _ _ _ => .trans) (fun _ hf => descends_statement hf)
  refine h.descends hd fun row hrow hid hr => ?_
  by_contra hne
  exact hc ⟨row, hrow, hid, hr, hne⟩

/-- Two rows with one row id are one. -/
theorem invite_unique (db : Database) {i j : InviteRow} (hi : i ∈ db.invites) (hj : j ∈ db.invites) (h : i.rowid = j.rowid) :
    i = j :=
  List.inj_on_of_nodup_map db.keys.invites hi hj h

/-- A delivered invitation goes to the user who asked, and its id denotes it. -/
theorem denotes_takeInvite {db : Database} {now : Time} {userId : Nat} {invite : Invite}
    (h : (takeInvite now userId db).2 = .ok (some invite)) :
    invite.receiver = userId ∧ Denotes invite (takeInvite now userId db).1.toTables := by
  revert h
  refine transaction_of_wp (P := fun r : Database × Except StorageError (Option Invite) =>
    r.2 = .ok (some invite) → invite.receiver = userId ∧ Denotes invite r.1.toTables) ?_
  rw [wp_bind]
  refine wp_statement_ok ((Tables.shrinks_deleteInvites _ _).integrity db.integrity) fun db₁ _ => ?_
  rw [wp_bind]
  refine wp_statement_ok (db₁.integrity.updateInvites _ (fun _ => rfl) (fun _ => rfl) (fun _ => rfl)) fun db₂ _ => ?_
  rw [wp_bind, wp_query]
  generalize hfound : newest _ = found
  cases found with
  | none => exact fun h => nomatch h
  | some row =>
    obtain ⟨hrow, hmatch⟩ := List.mem_filter.mp (mem_of_newest hfound)
    rw [decide_eq_true_eq] at hmatch
    have hdenotes : Denotes row.toInvite db₂.toTables := by
      intro i hi hid _
      rw [invite_unique db₂ hi hrow hid]
      rfl
    simp only [wp_bind]
    refine wp_statement_ok (db₂.integrity.updateInvites _ (fun _ => rfl) (fun _ => rfl) (fun _ => rfl)) fun db₃ h₃ => ?_
    rw [wp_pure, h₃]
    rintro ⟨⟩
    exact ⟨hmatch.1, hdenotes.updateInvites _ fun _ => ⟨rfl, rfl, rfl⟩⟩

/-- Accepting an id answers with nothing or with what the id denotes. -/
theorem acceptInvite_denotes {db : Database} {invite : Invite} (h : Denotes invite db.toTables) (now : Time) :
    ∃ answer, (acceptInvite now invite.receiver invite.id db).2 = .ok answer ∧
      ∀ accepted ∈ answer, accepted.identity = invite.identity := by
  refine transaction_of_wp (P := fun r : Database × Except StorageError (Option Invite) =>
    ∃ answer, r.2 = .ok answer ∧ ∀ accepted ∈ answer, accepted.identity = invite.identity) ?_
  rw [wp_bind]
  refine wp_statement_ok ((Tables.shrinks_deleteInvites _ _).integrity db.integrity) fun db₁ h₁ => ?_
  rw [wp_bind]
  refine wp_statement_ok (db₁.integrity.updateInvites _ (fun _ => rfl) (fun _ => rfl) (fun _ => rfl)) fun db₂ h₂ => ?_
  have hdenotes : Denotes invite db₂.toTables := by
    rw [h₂, h₁]
    exact (h.deleteInvites _).updateInvites _ fun _ => ⟨rfl, rfl, rfl⟩
  rw [wp_bind, wp_query]
  generalize hfound : Option.map _ _ = found
  cases found with
  | none => exact ⟨none, rfl, fun _ hm => nomatch hm⟩
  | some accepted =>
    have hidentity : accepted.identity = invite.identity := by
      obtain ⟨row, hrow, rfl⟩ := Option.map_eq_some_iff.mp hfound
      have hmatch := List.find?_some hrow
      rw [decide_eq_true_eq] at hmatch
      exact hdenotes row (List.mem_of_find?_eq_some hrow) hmatch.1 hmatch.2.1
    have hanswer : ∀ a ∈ some accepted, a.identity = invite.identity := by
      rintro a ⟨⟩
      exact hidentity
    simp only []
    split
    · rw [wp_bind, wp_query]
      split
      · exact ⟨_, rfl, hanswer⟩
      · exact ⟨none, rfl, fun _ hm => nomatch hm⟩
    · exact ⟨_, rfl, hanswer⟩

end InviteIds

open InviteIds

namespace InviteIds

/-- The user 1000 invites the user 1001 to a lobby, and the user 1002 hosts one too. -/
def lobbyCalls : List Call :=
  [⟨1000, .createGameSession 1000 1 "113 => 1".toList⟩, ⟨1001, .registerUrls 1002 ["prudp:/address=127.0.0.1".toList]⟩,
    ⟨1002, .createGameSession 1002 1 "113 => 1".toList⟩, ⟨1003, .addInvite 1000 1001 2 1 2⟩]

/-- The tables then. -/
def lobbies : Database := run (step Host.noHash) migrated lobbyCalls

/-- The invitation delivered to the user 1001. -/
def delivered : Invite :=
  { id := 1, sender := 1000, receiver := 1001, kind := 2, sessionType := 1, sessionId := 2, deliveryCount := 1 }

/-- The user 1002 invites the user 1000. -/
def otherInvite : List Call := [⟨1011, .addInvite 1002 1000 2 1 3⟩]

/-- The user 1002 invites the user 1001, which deletes the invitation delivered and reuses its id. -/
def reusingInvite : List Call := [⟨1011, .addInvite 1002 1001 2 1 3⟩]

end InviteIds

end Scbl.Storage
