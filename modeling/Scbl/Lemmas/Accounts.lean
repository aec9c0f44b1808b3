import Scbl.Lemmas.Executions
import Scbl.Storage.Queries

/-!
# Accounts

Registering a user is the only operation that adds an account (`accounts_step`); it does so when the name and the account id are
free, under the id after the largest (`registerUserUnsafe_cases`). Deleting a user is the only one that removes an account.
-/

namespace Scbl.Storage

open Scbl.Lib

namespace Tables

/-- The accounts of the users. -/
def accounts (t : Tables) : List Account := t.users.map (·.account)

/-- The id of the next user: the one after the largest. -/
def nextUserId (t : Tables) : Nat := maxId (t.users.map (·.id)) + 1

/-- No user has a name or an account id. -/
def Free (t : Tables) (username : Text) (ubiId : Option Text) : Prop :=
  username ∉ t.users.map (·.username) ∧ ∀ u, ubiId = some u → u ∉ t.users.filterMap (·.ubiId)

/-- The names and the ids of accounts are compared as texts. -/
local instance lawfulBEq_account : LawfulBEq Text := inferInstance

instance (t : Tables) (username : Text) (ubiId : Option Text) : Decidable (t.Free username ubiId) :=
  decidable_of_iff (username ∉ t.users.map (·.username) ∧ ∀ u ∈ ubiId, u ∉ t.users.filterMap (·.ubiId)) (by
    simp only [Option.mem_def]
    exact Iff.rfl)

theorem hasUser_iff {t : Tables} {userId : Nat} : t.HasUser userId ↔ ∃ a ∈ t.accounts, a.id = userId := by
  unfold HasUser accounts
  simp only [List.mem_map, exists_exists_and_eq_and]
  exact Iff.rfl

/-- The id after the largest is not in use. -/
theorem not_hasUser_nextUserId (t : Tables) : ¬ t.HasUser t.nextUserId := maxId_succ_notMem _

/-- The user with a name has an account. -/
theorem usernameOf_isSome_iff {t : Tables} {userId : Nat} : (t.usernameOf userId).isSome ↔ t.HasUser userId := by
  unfold usernameOf HasUser
  simp

/-- New users keep the constraints when their keys do and no user is lost. -/
theorem Integrity.setUsers {t : Tables} (h : t.Integrity) {users : List UserRow} (hids : (users.map (·.id)).Nodup)
    (hnames : (users.map (·.username)).Nodup) (hubis : (users.filterMap (·.ubiId)).Nodup)
    (hkept : ∀ userId, t.HasUser userId → userId ∈ users.map (·.id)) : ({ t with users } : Tables).Integrity where
  keys := { h.keys with users := hids, usernames := hnames, ubiIds := hubis }
  references :=
    { creator := fun g hg => hkept _ (h.references.creator g hg)
      participantGame := h.references.participantGame
      participantUser := fun p hp => hkept _ (h.references.participantUser p hp)
      stationUrl := fun u hu => hkept _ (h.references.stationUrl u hu)
      userSession := fun u hu => hkept _ (h.references.userSession u hu)
      sender := fun i hi => hkept _ (h.references.sender i hi)
      receiver := fun i hi => hkept _ (h.references.receiver i hi)
      leader := fun p hp => hkept _ (h.references.leader p hp)
      member := fun m hm => hkept _ (h.references.member m hm)
      memberParty := h.references.memberParty }

section

variable {t : Tables} {p : UserRow → Bool} {f : UserRow → UserRow}

/-- An update that leaves every account alone changes no column of the accounts. -/
theorem map_updateUsers {α : Type} (hf : ∀ u, (f u).account = u.account) (column : Account → α) :
    (t.updateUsers p f).users.map (fun u => column u.account) = t.users.map (fun u => column u.account) := by
  simp only [updateUsers, List.map_map]
  refine List.map_congr_left fun u _ => ?_
  simp only [Function.comp_apply]
  split
  · rw [hf]
  · rfl

theorem accounts_updateUsers (hf : ∀ u, (f u).account = u.account) : (t.updateUsers p f).accounts = t.accounts :=
  map_updateUsers hf id

/-- An update that leaves every account alone is accepted. -/
theorem Integrity.updateUsers (h : t.Integrity) (hf : ∀ u, (f u).account = u.account) : (t.updateUsers p f).Integrity := by
  have hids : (t.updateUsers p f).users.map (·.id) = t.users.map (·.id) := map_updateUsers hf (·.id)
  have hnames : (t.updateUsers p f).users.map (·.username) = t.users.map (·.username) := map_updateUsers hf (·.username)
  have hubis : (t.updateUsers p f).users.filterMap (·.ubiId) = t.users.filterMap (·.ubiId) := by
    have hmap : (t.updateUsers p f).users.map (·.ubiId) = t.users.map (·.ubiId) := map_updateUsers hf (·.ubiId)
    have hcolumn : ∀ users : List UserRow, users.filterMap (·.ubiId) = (users.map (·.ubiId)).filterMap id := fun users => by
      rw [List.filterMap_map]
      rfl
    rw [hcolumn, hmap, hcolumn]
  refine h.setUsers ?_ ?_ ?_ fun userId hu => ?_
  · exact hids ▸ h.keys.users
  · exact hnames ▸ h.keys.usernames
  · exact hubis ▸ h.keys.ubiIds
  · exact hids.symm ▸ hu

end

/-- A registration under a free name and account id is accepted. -/
theorem Integrity.insertUser {t : Tables} (h : t.Integrity) {username : Text} {ubiId : Option Text} (hfree : t.Free username ubiId)
    (passwordHash : Text) : (t.insertUser username passwordHash ubiId).Integrity := by
  refine h.setUsers ?_ ?_ ?_ fun userId hu => ?_
  · rw [List.map_append]
    exact h.keys.users.append (List.nodup_singleton _) fun userId hu hnew => by
      rw [List.mem_singleton.mp hnew] at hu
      exact maxId_succ_notMem _ hu
  · rw [List.map_append]
    exact h.keys.usernames.append (List.nodup_singleton _) fun name hname hnew => by
      rw [List.mem_singleton.mp hnew] at hname
      exact hfree.1 hname
  · rw [List.filterMap_append]
    refine h.keys.ubiIds.append ?_ fun u hu hnew => ?_
    · cases ubiId with
      | none => exact List.nodup_nil
      | some u => exact List.nodup_singleton u
    · cases ubiId with
      | none => nomatch hnew
      | some u' =>
        rw [List.mem_singleton.mp hnew] at hu
        exact hfree.2 u' rfl hu
  · rw [List.map_append]
    exact List.mem_append_left _ hu

/-- A registration under a name or an account id that is taken meets no unique key. -/
theorem free_of_keys_insertUser {t : Tables} {username passwordHash : Text} {ubiId : Option Text}
    (h : (t.insertUser username passwordHash ubiId).Keys) : t.Free username ubiId := by
  obtain ⟨-, hnames, hubis, -⟩ := h
  simp only [insertUser, List.map_append] at hnames
  simp only [insertUser, List.filterMap_append] at hubis
  refine ⟨fun hmem => ?_, fun u hu hmem => ?_⟩
  · exact (List.disjoint_of_nodup_append hnames) hmem (List.mem_singleton_self _)
  · subst hu
    exact (List.disjoint_of_nodup_append hubis) hmem (List.mem_singleton_self _)

end Tables

/-! ## What the operations do to the accounts -/

/-- Two accounts with one id are one. -/
theorem account_unique (db : Database) {a b : Account} (ha : a ∈ db.accounts) (hb : b ∈ db.accounts) (h : a.id = b.id) : a = b := by
  obtain ⟨u, hu, rfl⟩ := List.mem_map.mp ha
  obtain ⟨v, hv, rfl⟩ := List.mem_map.mp hb
  rw [List.inj_on_of_nodup_map db.keys.users hu hv h]

/-- No account is added. -/
def LosesAccounts (db db' : Database) : Prop := db'.accounts.Sublist db.accounts

instance : IsPreorder Database LosesAccounts where
  refl _ := .refl _
  trans _ _ _ h h' := h'.trans h

namespace Accounts

variable {ρ : Type}

/-- A statement that changes no account. -/
theorem moves_same {f : Tables → Tables} (h : ∀ t, (f t).accounts = t.accounts) :
    Moves LosesAccounts (statement f : StorageTx ρ Unit) :=
  moves_statement_of fun db db' hdb => by
    unfold LosesAccounts
    rw [hdb, h]

/-- A statement that leaves the users alone. -/
theorem moves_users {f : Tables → Tables} (h : ∀ t, (f t).users = t.users) :
    Moves LosesAccounts (statement f : StorageTx ρ Unit) :=
  moves_same fun t => congrArg (List.map UserRow.account) (h t)

theorem moves_plain {f : Tables → Tables} (hf : PlainStatement f) : Moves LosesAccounts (statement f : StorageTx ρ Unit) := by
  cases hf with
  | updateUsers p f h => exact moves_same fun t => Tables.accounts_updateUsers h
  | insertParticipant gameId userId => exact moves_users fun t => Tables.users_insertParticipant t gameId userId
  | insertStationUrl userId url =>
    refine moves_users fun t => ?_
    simp only [Tables.insertStationUrl]
    split <;> rfl
  | _ => exact moves_users fun _ => rfl

/-- The statements on invitations and parties leave the users alone. -/
theorem losesAccounts_of_executes {db db' : Database} (h : Executes PartyStatement db db') : LosesAccounts db db' := by
  have husers : db'.users = db.users := by
    refine (h.rel (R := fun t t' => t'.users = t.users) (fun _ => rfl) (fun _ _ _ h h' => h'.trans h) fun f hf t => ?_)
    cases hf <;> rfl
  unfold LosesAccounts Tables.accounts
  rw [husers]

theorem parts_losesAccounts : Parts LosesAccounts where
  plain := moves_plain
  deleteParticipants p := moves_users fun t => (t.shrinks_deleteParticipants (p t)).users
  deleteUser userId := moves_statement_of fun db db' hdb => by
    unfold LosesAccounts
    rw [hdb]
    exact List.filter_sublist.map _
  leaveParty _ := Moves.bind (moves_users fun _ => rfl) fun _ => moves_users fun _ => rfl
  disband := Moves.bind (moves_users fun _ => rfl) fun _ => moves_users fun _ => rfl
  deleteInvites _ := moves_users fun _ => rfl
  consume _ _ := moves_users fun _ => rfl
  deliver _ _ := moves_users fun _ => rfl
  follow now leaderId sessionType sessionId partyId receiverId :=
    (Executions.moves_queuePartyFollowInvite now leaderId sessionType sessionId partyId receiverId).mono
      fun _ _ => losesAccounts_of_executes
  restore now creatorId typeId lobbySessionId receivers :=
    (Moves.bind (Executions.moves_ensurePartyForLeader creatorId) fun partyId =>
      Moves.foldlM (Executions.moves_queueLobbyRestore now creatorId typeId lobbySessionId partyId) receivers 0).mono
      fun _ _ => losesAccounts_of_executes
  addInvite now senderId receiverId kind sessionType sessionId db :=
    losesAccounts_of_executes (Executions.executes_addInvite db now senderId receiverId kind sessionType sessionId)

end Accounts

/-- No operation but a registration adds an account. -/
theorem losesAccounts_step (argon2 : Argon2) (db : Database) (call : Call)
    (hcall : ∀ username passwordHash ubiId, call.op ≠ .registerUser username passwordHash ubiId) :
    LosesAccounts db (step argon2 db call).1 :=
  Accounts.parts_losesAccounts.step db argon2 call
    (fun username passwordHash ubiId hop => absurd hop (hcall username passwordHash ubiId))
    (fun userId typeId sessionId _ => (Executions.moves_joinInvitingParty call.now userId typeId sessionId).mono
      fun _ _ => Accounts.losesAccounts_of_executes)
    (fun _ _ _ => Accounts.moves_users fun _ => rfl)

/-- A registration inserts a user when the name and the account id are free, and changes nothing otherwise. -/
theorem registerUserUnsafe_cases (db : Database) (username passwordHash : Text) (ubiId : Option Text) :
    let after := (registerUserUnsafe username passwordHash ubiId db).1
    (db.Free username ubiId ∧ after.accounts = db.accounts ++ [{ id := db.nextUserId, username, ubiId }]) ∨
      (¬ db.Free username ubiId ∧ after = db) := by
  by_cases hfree : db.Free username ubiId
  · refine .inl ⟨hfree, ?_⟩
    refine transaction_of_wp (P := fun r : Database × Except StorageError Unit => r.1.accounts = db.accounts ++ [_]) ?_
    refine wp_statement_ok (db.integrity.insertUser hfree passwordHash) fun db' hdb' => ?_
    rw [hdb']
    exact List.map_append
  · refine .inr ⟨hfree, ?_⟩
    refine transaction_of_wp (P := fun r : Database × Except StorageError Unit => r.1 = db) ?_
    refine wp_execute (fun db' hcheck => ?_) fun e _ => rfl
    have hkeys := db'.keys
    rw [Tables.toTables_of_check hcheck] at hkeys
    exact absurd (Tables.free_of_keys_insertUser hkeys) hfree

/-- A login that succeeds is that of a user with the name, whose password verified. -/
theorem user_of_loginUser {argon2 : Argon2} {username password : Text} {db : Database} {userId : Nat}
    (h : (loginUser argon2 username password db).2 = .ok (.ok userId)) :
    ∃ user ∈ db.users, user.username = username ∧ user.id = userId ∧ verifyPassword argon2 user password = .ok true := by
  revert h
  refine transaction_of_wp (P := fun r : Database × Except StorageError (Except LoginError Nat) => r.2 = .ok (.ok userId) → _) ?_
  rw [wp_bind, wp_query]
  cases hfound : db.users.find? (fun u => decide (u.username = username)) with
  | none => exact fun h => nomatch h
  | some user =>
    have hname : user.username = username := by simpa using List.find?_some hfound
    simp only []
    cases hv : verifyPassword argon2 user password with
    | error e => exact fun h => nomatch h
    | ok verified =>
      cases verified with
      | false => exact fun h => nomatch h
      | true =>
        rw [wp_bind]
        refine wp_execute (fun db' _ => ?_) (fun e _ => fun h => nomatch h)
        rintro ⟨⟩
        exact ⟨user, List.mem_of_find?_eq_some hfound, hname, rfl, hv⟩

/-- A login changes no account. -/
theorem accounts_loginUser (argon2 : Argon2) (username password : Text) (db : Database) :
    (loginUser argon2 username password db).1.accounts = db.accounts := by
  refine transaction_inv (I := fun db' : Database => db'.accounts = db.accounts) rfl ?_
  rw [wp_bind, wp_query]
  cases db.users.find? (·.username = username) with
  | none => exact rfl
  | some user =>
    simp only []
    split
    · trivial
    · exact rfl
    · rw [wp_bind]
      refine wp_statement fun db' hdb' => ?_
      rw [wp_pure, hdb']
      exact Tables.accounts_updateUsers fun _ => rfl

end Scbl.Storage
