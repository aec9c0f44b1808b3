import Scbl.Lemmas.Invitations
import Scbl.Lemmas.Parties
import Scbl.Theorems.Lanes

/-!
# Back to the lobby

When the host of a game room deletes it, the players that remain are invited back to the newest lobby the host has open. The query for
that lobby decodes the attributes of every other session the host has open, lobby or not: one session without attributes among them,
and the room cannot be deleted while others remain in it. That is the only thing that stands in the way.
-/

namespace Scbl.Storage

open Scbl.Lib

namespace Tables

/-- A user hosts an active session of a type, other than the one with an id, takes part in it and has an endpoint. -/
structure HostsLive (t : Tables) (creatorId typeId sessionId : Nat) (g : GameSessionRow) : Prop where
  row : g ∈ t.gameSessions
  creator : g.creatorId = creatorId
  ofType : g.typeId = typeId
  other : g.id ≠ sessionId
  active : g.destroyedAt = none
  hosted : { gameId := g.id, userId := creatorId } ∈ t.participants
  endpoint : ∃ r ∈ t.stationUrls, r.userId = creatorId

/-- A lobby among these sessions. -/
structure LiveLobby (t : Tables) (creatorId typeId sessionId : Nat) (g : GameSessionRow) : Prop extends
    t.HostsLive creatorId typeId sessionId g where
  lobby : g.attributes.any isLobbySessionAttributes = true

/-- The newest of these lobbies. -/
structure NewestLobby (t : Tables) (creatorId typeId sessionId : Nat) (g : GameSessionRow) : Prop extends
    t.LiveLobby creatorId typeId sessionId g where
  newest : ∀ g', t.LiveLobby creatorId typeId sessionId g' → g'.id ≤ g.id

/-- An active game room of a user. -/
structure OwnRoom (t : Tables) (creatorId typeId sessionId : Nat) (g : GameSessionRow) : Prop where
  row : g ∈ t.gameSessions
  creator : g.creatorId = creatorId
  ofType : g.typeId = typeId
  id : g.id = sessionId
  active : g.destroyedAt = none
  room : g.attributes.any isGameRoomAttributes = true

/-- The users in a room, but for its host, who are not in a lobby. -/
def returning (t : Tables) (creatorId sessionId lobbyId : Nat) : List Nat :=
  ((t.participantIds sessionId).filter (· ≠ creatorId)).filter (fun v => !t.isParticipant lobbyId v)

end Tables

/-- What the deletion of a session is to do. When it is a game room of the caller and the caller has a lobby open, everybody who remains
and is not in the newest lobby gets one invitation back to it, nobody else gets any, and the answer counts them. Otherwise no invitation
changes. -/
structure SendsBack (creatorId typeId sessionId : Nat) (db : Database) (after : Database × Except StorageError (Nat × Nat)) : Prop where
  invited : ∀ r g, db.OwnRoom creatorId typeId sessionId r → db.NewestLobby creatorId typeId sessionId g →
    ∀ v ∈ db.returning creatorId sessionId g.id, ∃ i partyId, after.1.unconsumed v [INVITE_KIND_LOBBY_RESTORE] = [i] ∧
      i.sessionType = typeId ∧ i.sessionId = g.id ∧ i.partyId = some partyId ∧ after.1.partyOfLeader creatorId = some partyId
  others : ∀ r g, db.OwnRoom creatorId typeId sessionId r → db.NewestLobby creatorId typeId sessionId g →
    ∀ v, v ∉ db.returning creatorId sessionId g.id → after.1.invitesTo v = db.invitesTo v
  counts : ∀ r g, db.OwnRoom creatorId typeId sessionId r → db.NewestLobby creatorId typeId sessionId g →
    ∃ created, after.2 = .ok (1, created) ∧ created = (db.returning creatorId sessionId g.id).length ∧
      after.1.invites.length = db.invites.length + created
  unchanged : (∀ r g, db.OwnRoom creatorId typeId sessionId r → ¬ db.LiveLobby creatorId typeId sessionId g) →
    after.1.invites = db.invites

namespace LobbyRestore

open Tables

variable {ρ : Type} {t : Tables} {db : Database} {now : Time} {creatorId typeId sessionId : Nat}

/-! ## The newest lobby -/

theorem mem_lobbyCandidates {g : GameSessionRow} :
    g ∈ t.lobbyCandidates creatorId typeId sessionId ↔ t.HostsLive creatorId typeId sessionId g := by
  simp only [lobbyCandidates, List.mem_insertionSort, List.mem_filter, decide_eq_true_eq, isParticipant, hasEndpoint, List.any_eq_true]
  constructor
  · rintro ⟨hg, rfl, htype, hother, hactive, hhost, hend⟩
    exact ⟨hg, rfl, htype, hother, hactive, hhost, hend⟩
  · rintro ⟨hg, rfl, htype, hother, hactive, hhost, hend⟩
    exact ⟨hg, rfl, htype, hother, hactive, hhost, hend⟩

/-- The lobby found first is the newest. -/
theorem newestLobby_of_find {g : GameSessionRow}
    (h : (t.lobbyCandidates creatorId typeId sessionId).find? (·.attributes.any isLobbySessionAttributes) = some g) :
    t.NewestLobby creatorId typeId sessionId g where
  toHostsLive := mem_lobbyCandidates.mp (List.mem_of_find?_eq_some h)
  lobby := @List.find?_some _ (fun g : GameSessionRow => g.attributes.any isLobbySessionAttributes) _ _ h
  newest := by
    intro g' hg'
    have hmem := mem_lobbyCandidates.mpr hg'.toHostsLive
    have hsorted : (t.lobbyCandidates creatorId typeId sessionId).Pairwise (fun g h => h.id ≤ g.id) := List.pairwise_insertionSort _ _
    obtain ⟨-, before, after, hl, hnone⟩ := List.find?_eq_some_iff_append.mp h
    rw [hl] at hmem hsorted
    rcases List.mem_append.mp hmem with hmem | hmem
    · have := hnone g' hmem
      rw [hg'.lobby] at this
      nomatch this
    · rcases List.mem_cons.mp hmem with rfl | hmem
      · exact le_refl _
      · exact List.rel_of_pairwise_cons (List.pairwise_append.mp hsorted).2.1 hmem

/-- No lobby is found when there is none. -/
theorem not_liveLobby_of_find
    (h : (t.lobbyCandidates creatorId typeId sessionId).find? (·.attributes.any isLobbySessionAttributes) = none) (g : GameSessionRow) :
    ¬ t.LiveLobby creatorId typeId sessionId g :=
  fun hg => absurd hg.lobby (List.find?_eq_none.mp h g (mem_lobbyCandidates.mpr hg.toHostsLive))

/-- Of two newest lobbies each is the other. -/
theorem newestLobby_unique {g g' : GameSessionRow} (h : db.NewestLobby creatorId typeId sessionId g)
    (h' : db.NewestLobby creatorId typeId sessionId g') : g = g' :=
  db.session_unique h.row h'.row (le_antisymm (h'.newest g h.toLiveLobby) (h.newest g' h'.toLiveLobby))

/-- The other sessions of a user are open as long as only the one with the id changes. -/
theorem hostsLive_congr {t' : Tables} (hrows : ∀ g, g.id ≠ sessionId → (g ∈ t'.gameSessions ↔ g ∈ t.gameSessions))
    (hparticipants : t'.participants = t.participants) (hurls : t'.stationUrls = t.stationUrls) (g : GameSessionRow) :
    t'.HostsLive creatorId typeId sessionId g ↔ t.HostsLive creatorId typeId sessionId g := by
  constructor
  · rintro ⟨hg, hc, ht, hother, ha, hh, he⟩
    rw [hparticipants] at hh
    rw [hurls] at he
    exact ⟨(hrows g hother).mp hg, hc, ht, hother, ha, hh, he⟩
  · rintro ⟨hg, hc, ht, hother, ha, hh, he⟩
    rw [← hparticipants] at hh
    rw [← hurls] at he
    exact ⟨(hrows g hother).mpr hg, hc, ht, hother, ha, hh, he⟩

/-! ## The invitations -/

/-- The only invitation back to a lobby that was not consumed. -/
def RestoredTo (creatorId typeId lobbyId partyId : Nat) (_ : Nat) (rows : List InviteRow) : Prop :=
  ∃ i, rows.filter (fun i => i.kind = INVITE_KIND_LOBBY_RESTORE ∧ i.consumedAt = none) = [i] ∧ i.sessionType = typeId ∧
    i.sessionId = lobbyId ∧ i.partyId = some partyId ∧ i.sender = creatorId

/-- The invitations that were not consumed, among those for their receiver. -/
theorem unconsumed_eq (t : Tables) (receiver kind : Nat) :
    t.unconsumed receiver [kind] = (t.invitesTo receiver).filter (fun i => i.kind = kind ∧ i.consumedAt = none) := by
  rw [unconsumed, invitesTo, List.filter_filter]
  refine List.filter_congr fun i _ => ?_
  simp only [List.mem_singleton, Bool.decide_and, Bool.and_comm]

/-- The earlier invitations of the receiver are consumed, so the new one is the only one. -/
theorem restoredTo_invitedBack (t : Tables) (now : Time) (creatorId typeId lobbyId partyId receiver : Nat) :
    RestoredTo creatorId typeId lobbyId partyId receiver
      ((t.invitedBack now creatorId typeId lobbyId partyId receiver).invitesTo receiver) := by
  let t' := t.updateInvites (fun i => i.receiver = receiver ∧ i.kind = INVITE_KIND_LOBBY_RESTORE ∧ i.consumedAt = none)
    ({ · with consumedAt := some now })
  let row := t'.insertedInvite now creatorId receiver INVITE_KIND_LOBBY_RESTORE typeId lobbyId (some partyId) (now + 60)
  have hrows : (t.invitedBack now creatorId typeId lobbyId partyId receiver).invitesTo receiver = t'.invitesTo receiver ++ [row] :=
    invitesTo_insertInvite ..
  have hconsumed : (t'.invitesTo receiver).filter (fun i => i.kind = INVITE_KIND_LOBBY_RESTORE ∧ i.consumedAt = none) = [] := by
    refine List.filter_eq_nil_iff.mpr fun i' hi' => ?_
    rw [invitesTo_updateInvites (f := fun i => { i with consumedAt := some now }) (fun _ => rfl)] at hi'
    obtain ⟨i, hi, rfl⟩ := List.mem_map.mp hi'
    have hreceiver := (mem_invitesTo.mp hi).2
    rw [decide_eq_true_eq]
    split
    · exact fun h => nomatch h.2
    · rename_i hp
      exact fun h => hp (decide_eq_true ⟨hreceiver, h⟩)
  refine ⟨row, ?_, rfl, rfl, rfl, rfl⟩
  rw [hrows, List.filter_append, hconsumed]
  rfl

/-- Nobody else is invited back. -/
theorem invitesTo_invitedBack_other {receiver v : Nat} (hv : v ≠ receiver) (lobbyId partyId : Nat) :
    (t.invitedBack now creatorId typeId lobbyId partyId receiver).invitesTo v = t.invitesTo v := by
  unfold invitedBack
  rw [invitesTo_insertInvite_other _ _ _ _ _ _ _ hv]
  exact invitesTo_updateInvites_other (f := fun i => { i with consumedAt := some now }) (fun _ => rfl)
    (fun i hp => (of_decide_eq_true hp).1) hv

/-- One invitation more. -/
theorem length_invitedBack (t : Tables) (now : Time) (creatorId typeId lobbyId partyId receiver : Nat) :
    (t.invitedBack now creatorId typeId lobbyId partyId receiver).invites.length = t.invites.length + 1 := by
  simp only [invitedBack, insertInvite, updateInvites, List.length_append, List.length_map, List.length_singleton]

/-- Every user who is not in the lobby is invited back once. -/
theorem wp_restoreAll {lobbyId partyId : Nat} (hs : db.HasUser creatorId) {receivers : List Nat} (hnodup : receivers.Nodup)
    (hr : ∀ v ∈ receivers, db.HasUser v) :
    wp (receivers.foldlM (queueLobbyRestore now creatorId typeId lobbyId partyId) 0 : StorageTx ρ Nat)
      (fun n db' => Queued (RestoredTo creatorId typeId lobbyId partyId) (receivers.filter (fun v => !db.isParticipant lobbyId v))
        db.toTables db'.toTables ∧ n = (receivers.filter (fun v => !db.isParticipant lobbyId v)).length ∧
        db'.invites.length = db.invites.length + n)
      (fun _ => False) db := by
  refine wp_foldlM_done (fun done n (db' : Database) => Queued (RestoredTo creatorId typeId lobbyId partyId)
    (done.filter (fun v => !db.isParticipant lobbyId v)) db.toTables db'.toTables ∧
      n = (done.filter (fun v => !db.isParticipant lobbyId v)).length ∧ db'.invites.length = db.invites.length + n) ?_
    ⟨.nil _ _, rfl, rfl⟩
  rintro done v rest n db' hl ⟨hqueued, hn, hlength⟩
  have hmem : v ∈ receivers := hl ▸ List.mem_append_right _ List.mem_cons_self
  have hnew : v ∉ done := by
    rw [← hl] at hnodup
    exact fun hd => (List.nodup_append.mp hnodup).2.2 v hd v List.mem_cons_self rfl
  have hin : db'.isParticipant lobbyId v = db.isParticipant lobbyId v := by
    unfold isParticipant
    rw [hqueued.same.participants]
  refine wp_mono (wp_queueLobbyRestore now typeId lobbyId partyId n (hqueued.same.hasUser hs) (hqueued.same.hasUser (hr v hmem)))
    fun n' db'' h => ?_
  rw [hin] at h
  rw [List.filter_append, List.filter_singleton]
  cases hlobby : db.isParticipant lobbyId v with
  | true =>
    rw [hlobby, if_pos rfl] at h
    obtain ⟨rfl, rfl⟩ := h
    simp only [Bool.not_true, cond_false, List.append_nil]
    exact ⟨hqueued, hn, hlength⟩
  | false =>
    rw [hlobby, if_neg Bool.false_ne_true] at h
    obtain ⟨rfl, htables⟩ := h
    simp only [Bool.not_false, cond_true]
    refine ⟨hqueued.snoc (fun hd => hnew (List.mem_filter.mp hd).1) ?_ (fun w hw => ?_) ?_, ?_, ?_⟩
    · rw [htables]
      exact ⟨rfl, rfl, rfl, rfl, rfl, rfl⟩
    · rw [htables, invitesTo_invitedBack_other hw]
    · rw [htables]
      exact restoredTo_invitedBack _ _ _ _ _ _ _
    · rw [List.length_append, List.length_singleton, hn]
    · rw [htables, length_invitedBack, hlength, Nat.add_assoc]

/-! ## The party -/

/-- A party of a leader who has none. -/
theorem integrity_insertParty {t : Tables} (h : t.Integrity) {leaderId : Nat} (hu : t.HasUser leaderId)
    (hnone : t.partyOfLeader leaderId = none) : (t.insertParty leaderId).Integrity := by
  have hid : t.nextPartyId ∉ t.parties.map (·.id) :=
    fun hin => absurd (le_trans (le_maxId hin) (le_max_right t.partySequence _)) (Nat.not_succ_le_self _)
  have hleader : leaderId ∉ t.parties.map (·.leaderId) := by
    intro hin
    obtain ⟨party, hparty, he⟩ := List.mem_map.mp hin
    have := List.find?_eq_none.mp (Option.map_eq_none_iff.mp hnone) party hparty
    simp [he] at this
  constructor
  · refine { h.keys with parties := ?_, leaders := ?_ }
    · rw [insertParty, List.map_append]
      exact List.nodup_append_comm.mp (List.nodup_cons.mpr ⟨hid, h.keys.parties⟩)
    · rw [insertParty, List.map_append]
      exact List.nodup_append_comm.mp (List.nodup_cons.mpr ⟨hleader, h.keys.leaders⟩)
  · refine { h.references with leader := ?_, memberParty := ?_ }
    · intro party hparty
      rcases List.mem_append.mp hparty with hparty | hparty
      · exact h.references.leader party hparty
      · rw [List.mem_singleton.mp hparty]
        exact hu
    · intro m hm
      obtain ⟨party, hparty, he⟩ := List.mem_map.mp (h.references.memberParty m hm)
      exact List.mem_map.mpr ⟨party, List.mem_append_left _ hparty, he⟩

/-- The party of a leader is found again after it was inserted. -/
theorem partyOfLeader_insertParty {t : Tables} {leaderId : Nat} (hnone : t.partyOfLeader leaderId = none) :
    (t.insertParty leaderId).partyOfLeader leaderId = some t.nextPartyId := by
  have hfind : t.parties.find? (fun party => party.leaderId = leaderId) = none := Option.map_eq_none_iff.mp hnone
  rw [partyOfLeader, insertParty, List.find?_append, hfind]
  simp

/-- A user has a party of its own whenever one is asked for; only parties and their members change. -/
theorem wp_ensureParty {leaderId : Nat} (hu : db.HasUser leaderId) :
    wp (ensurePartyForLeader leaderId : StorageTx ρ Nat)
      (fun partyId db' => db'.partyOfLeader leaderId = some partyId ∧ db'.users = db.users ∧ db'.participants = db.participants ∧
        db'.invites = db.invites)
      (fun _ => False) db := by
  have hupsert : ∀ (partyId : Nat) (db₁ : Database), db₁.partyOfLeader leaderId = some partyId → db₁.HasUser leaderId →
      wp (statement (·.upsertPartyMember leaderId partyId) : StorageTx ρ Unit)
        (fun _ db' => db'.partyOfLeader leaderId = some partyId ∧ db'.users = db₁.users ∧
          db'.participants = db₁.participants ∧ db'.invites = db₁.invites) (fun _ => False) db₁ := by
    intro partyId db₁ hparty hu₁
    have hexists : db₁.HasParty partyId := List.mem_map_of_mem (f := (·.id)) (Parties.mem_of_partyOfLeader hparty)
    refine wp_statement_ok (db₁.integrity.upsertPartyMember hu₁ hexists) fun db₂ h₂ => ?_
    rw [h₂]
    exact ⟨hparty, rfl, rfl, rfl⟩
  unfold ensurePartyForLeader findOrInsertParty
  rw [wp_bind, wp_bind, wp_query]
  cases hparty : db.partyOfLeader leaderId with
  | some partyId => exact wp_bind.mpr (hupsert partyId db hparty hu)
  | none =>
    simp only [wp_bind, wp_query]
    refine wp_statement_ok (integrity_insertParty db.integrity hu hparty) fun db₁ h₁ => ?_
    have hparty₁ : db₁.partyOfLeader leaderId = some db.nextPartyId := by
      rw [h₁]
      exact partyOfLeader_insertParty hparty
    have hu₁ : db₁.HasUser leaderId := by
      rw [h₁]
      exact hu
    rw [wp_pure, wp_bind]
    refine wp_mono (hupsert db.nextPartyId db₁ hparty₁ hu₁) fun _ db₂ h₂ => ?_
    rw [h₁] at h₂
    exact h₂

/-! ## What a deletion can do -/

/-- An active session of a user with a type and an id. -/
def owned (creatorId typeId sessionId : Nat) (g : GameSessionRow) : Bool :=
  g.creatorId = creatorId ∧ g.typeId = typeId ∧ g.id = sessionId ∧ g.destroyedAt = none

/-- The users that remain in a session without its host. -/
def remaining (t : Tables) (creatorId sessionId : Nat) : List Nat := (t.participantIds sessionId).filter (· ≠ creatorId)

/-- The outcomes of the deletion of a session. -/
inductive Outcome (creatorId typeId sessionId : Nat) (db : Database) : Database × Except StorageError (Nat × Nat) → Prop where
  | notOwned (h : ∀ g ∈ db.gameSessions, owned creatorId typeId sessionId g = false) :
    Outcome creatorId typeId sessionId db (db, .ok (0, 0))
  | undecoded {r : GameSessionRow} (hr : r ∈ db.gameSessions) (ho : owned creatorId typeId sessionId r = true)
    (hattr : r.attributes = none) (e : StorageError) : Outcome creatorId typeId sessionId db (db, .error e)
  | plain {r : GameSessionRow} (hr : r ∈ db.gameSessions) (ho : owned creatorId typeId sessionId r = true) (hattr : r.attributes ≠ none)
    (hplain : r.attributes.any isGameRoomAttributes = false ∨ remaining db.toTables creatorId sessionId = [])
    {db' : Database} (hinvites : db'.invites = db.invites) : Outcome creatorId typeId sessionId db (db', .ok (1, 0))
  | blocked {r : GameSessionRow} (hr : db.OwnRoom creatorId typeId sessionId r)
    (hremain : remaining db.toTables creatorId sessionId ≠ []) {g : GameSessionRow} (hg : db.HostsLive creatorId typeId sessionId g)
    (hattr : g.attributes = none) (e : StorageError) : Outcome creatorId typeId sessionId db (db, .error e)
  | noLobby {r : GameSessionRow} (hr : db.OwnRoom creatorId typeId sessionId r)
    (hdecoded : ∀ g, db.HostsLive creatorId typeId sessionId g → g.attributes ≠ none)
    (hnone : ∀ g, ¬ db.LiveLobby creatorId typeId sessionId g) {db' : Database} (hinvites : db'.invites = db.invites) :
    Outcome creatorId typeId sessionId db (db', .ok (1, 0))
  | restored {r g : GameSessionRow} (hr : db.OwnRoom creatorId typeId sessionId r)
    (hdecoded : ∀ g, db.HostsLive creatorId typeId sessionId g → g.attributes ≠ none)
    (hg : db.NewestLobby creatorId typeId sessionId g) {db' : Database} {partyId : Nat}
    (hparty : db'.partyOfLeader creatorId = some partyId)
    (hreached : ∀ v ∈ db.returning creatorId sessionId g.id, RestoredTo creatorId typeId g.id partyId v (db'.invitesTo v))
    (hothers : ∀ v, v ∉ db.returning creatorId sessionId g.id → db'.invitesTo v = db.invitesTo v)
    (hlength : db'.invites.length = db.invites.length + (db.returning creatorId sessionId g.id).length) :
    Outcome creatorId typeId sessionId db (db', .ok (1, (db.returning creatorId sessionId g.id).length))

theorem owned_iff {g : GameSessionRow} : owned creatorId typeId sessionId g = true ↔
    g.creatorId = creatorId ∧ g.typeId = typeId ∧ g.id = sessionId ∧ g.destroyedAt = none :=
  decide_eq_true_iff

/-- A game room of the user is the owned session. -/
theorem eq_of_ownRoom {r r' : GameSessionRow} (hr : r ∈ db.gameSessions) (ho : owned creatorId typeId sessionId r = true)
    (h : db.OwnRoom creatorId typeId sessionId r') : r' = r :=
  db.session_unique h.row hr (h.id.trans (owned_iff.mp ho).2.2.1.symm)

/-- No two sessions are owned under one key. -/
theorem countP_owned {r : GameSessionRow} (hr : r ∈ db.gameSessions) (ho : owned creatorId typeId sessionId r = true) :
    db.gameSessions.countP (owned creatorId typeId sessionId) = 1 := by
  have hsame : ∀ g ∈ db.gameSessions, owned creatorId typeId sessionId g = (g == r) := by
    intro g hg
    rw [Bool.eq_iff_iff, beq_iff_eq]
    constructor
    · exact fun hg' => db.session_unique hg hr ((owned_iff.mp hg').2.2.1.trans (owned_iff.mp ho).2.2.1.symm)
    · exact fun he => he ▸ ho
  rw [List.countP_congr fun g hg => by rw [hsame g hg]]
  exact List.count_eq_one_of_mem (db.keys.gameSessions.of_map _) hr

/-- Destroying the owned session leaves the other sessions open. -/
theorem hostsLive_destroyed (db : Database) (now : Time) (creatorId typeId sessionId : Nat) (g : GameSessionRow) :
    (db.updateGameSessions (owned creatorId typeId sessionId) ({ · with destroyedAt := some now })).HostsLive creatorId typeId
      sessionId g ↔ db.HostsLive creatorId typeId sessionId g := by
  refine hostsLive_congr (fun g hne => ?_) ?rows ?urls g
  case rows => rfl
  case urls => rfl
  have hother : ∀ g' : GameSessionRow, g'.id ≠ sessionId → owned creatorId typeId sessionId g' = false := by
    intro g' hne'
    rw [← Bool.not_eq_true, owned_iff]
    exact fun ho => hne' ho.2.2.1
  constructor
  · intro hg
    obtain ⟨g', hg', he⟩ := List.mem_map.mp hg
    by_cases ho : owned creatorId typeId sessionId g' = true
    · rw [if_pos ho] at he
      rw [← he] at hne
      exact absurd (owned_iff.mp ho).2.2.1 hne
    · rw [if_neg ho] at he
      rwa [← he]
  · exact fun hg => List.mem_map.mpr ⟨g, hg, by rw [hother g hne]; rfl⟩

/-- Once the room is destroyed and a lobby was found, everybody who remains is invited back to it. -/
theorem wp_sendBack {r g : GameSessionRow} (hr : db.OwnRoom creatorId typeId sessionId r)
    (hdecoded : ∀ g, db.HostsLive creatorId typeId sessionId g → g.attributes ≠ none)
    (hg : db.NewestLobby creatorId typeId sessionId g) {db₁ : Database}
    (h₁ : db₁.toTables = db.updateGameSessions (owned creatorId typeId sessionId) ({ · with destroyedAt := some now })) :
    wp (do
        let partyId ← ensurePartyForLeader creatorId
        let queued ← (remaining db.toTables creatorId sessionId).foldlM (queueLobbyRestore now creatorId typeId g.id partyId) 0
        pure (1, queued) : StorageTx (Nat × Nat) (Nat × Nat))
      (fun a db' => Outcome creatorId typeId sessionId db (db', .ok a)) (fun _ => False) db₁ := by
  have husers₁ : db₁.users = db.users := by rw [h₁]; rfl
  have hparticipants₁ : db₁.participants = db.participants := by rw [h₁]; rfl
  have hinvites₁ : db₁.invites = db.invites := by rw [h₁]; rfl
  have huser : ∀ v, db.HasUser v → db₁.HasUser v := by
    intro v hv
    unfold HasUser
    rw [husers₁]
    exact hv
  have hcreator : db.HasUser creatorId := hr.creator ▸ db.references.creator r hr.row
  rw [wp_bind]
  refine wp_mono (wp_ensureParty (huser _ hcreator)) fun partyId db₂ ⟨hparty, husers₂, hparticipants₂, hinvites₂⟩ => ?_
  have huser₂ : ∀ v, db.HasUser v → db₂.HasUser v := by
    intro v hv
    have hv₁ := huser v hv
    unfold HasUser at hv₁ ⊢
    rwa [husers₂]
  have hnodup : (remaining db.toTables creatorId sessionId).Nodup := by
    refine List.Nodup.filter _ ((List.perm_insertionSort _ _).nodup_iff.mpr ?_)
    refine List.Nodup.map_on (fun p hp q hq he => ?_) (db.keys.participants.filter _)
    have hp' := of_decide_eq_true (List.mem_filter.mp hp).2
    have hq' := of_decide_eq_true (List.mem_filter.mp hq).2
    cases p
    cases q
    simp_all
  have hremain : ∀ v ∈ remaining db.toTables creatorId sessionId, db₂.HasUser v := by
    intro v hv
    exact huser₂ v (db.references.participantUser _ (mem_participantIds.mp (List.mem_filter.mp hv).1))
  rw [wp_bind]
  refine wp_mono (wp_restoreAll (huser₂ _ hcreator) hnodup hremain) fun n db' ⟨hqueued, hn, hlength⟩ => ?_
  have hreturning : (remaining db.toTables creatorId sessionId).filter (fun v => !db₂.isParticipant g.id v) =
      db.returning creatorId sessionId g.id := by
    refine List.filter_congr fun v _ => ?_
    unfold isParticipant
    rw [hparticipants₂, hparticipants₁]
  rw [hreturning] at hqueued hn
  have hinvitesTo : ∀ v, db₂.invitesTo v = db.invitesTo v := by
    intro v
    unfold invitesTo
    rw [hinvites₂, hinvites₁]
  have hparty' : db'.partyOfLeader creatorId = some partyId := by
    unfold partyOfLeader at hparty ⊢
    rw [hqueued.same.parties]
    exact hparty
  rw [wp_pure, hn]
  refine .restored hr hdecoded hg hparty' hqueued.reached (fun v hv => ?_) ?_
  · rw [hqueued.others v hv, hinvitesTo]
  · rw [hlength, hinvites₂, hinvites₁, hn]

/-- The deletion of a session has one of the outcomes. -/
theorem deleteGameSession_outcome (now : Time) (creatorId typeId sessionId : Nat) (db : Database) :
    Outcome creatorId typeId sessionId db (deleteGameSession now creatorId typeId sessionId db) := by
  refine transaction_of_wp (P := Outcome creatorId typeId sessionId db) ?_
  have howned : (fun g : GameSessionRow => decide (g.creatorId = creatorId ∧ g.typeId = typeId ∧ g.id = sessionId ∧
      g.destroyedAt = none)) = owned creatorId typeId sessionId := rfl
  rw [wp_bind, wp_query, howned]
  cases hfound : db.gameSessions.find? (owned creatorId typeId sessionId) with
  | none =>
    refine .notOwned fun g hg => ?_
    simpa using List.find?_eq_none.mp hfound g hg
  | some r =>
    have hr := List.mem_of_find?_eq_some hfound
    have ho := List.find?_some hfound
    simp only [wp_bind]
    cases hattr : r.attributes with
    | none => exact .undecoded hr ho hattr _
    | some attributes =>
      rw [decodeText, wp_pure, wp_bind, wp_query, wp_bind, wp_query, wp_bind]
      have hintegrity : (db.updateGameSessions (owned creatorId typeId sessionId) ({ · with destroyedAt := some now })).Integrity :=
        db.integrity.updateGameSessions _ (fun _ => rfl) fun g hg _ => db.references.creator g hg
      refine wp_statement_ok hintegrity fun db₁ h₁ => ?_
      have hinvites : db₁.invites = db.invites := by rw [h₁]; rfl
      have hcandidates : ∀ g, g ∈ db₁.lobbyCandidates creatorId typeId sessionId ↔ db.HostsLive creatorId typeId sessionId g := by
        intro g
        rw [mem_lobbyCandidates, h₁, hostsLive_destroyed]
      rw [countP_owned hr ho]
      split
      · rename_i hplain
        refine .plain hr ho (by rw [hattr]; exact fun h => by cases h) ?_ hinvites
        rcases hplain with hzero | hclass | hnobody
        · cases hzero
        · refine .inl ?_
          rw [hattr]
          simpa using hclass
        · exact .inr hnobody
      · rename_i hroom
        simp only [Nat.one_ne_zero, false_or, not_or, Bool.not_eq_true', Bool.not_eq_false] at hroom
        have hown : db.OwnRoom creatorId typeId sessionId r := by
          obtain ⟨hcreator, htype, hid, hactive⟩ := owned_iff.mp ho
          exact ⟨hr, hcreator, htype, hid, hactive, by rw [hattr]; exact hroom.1⟩
        rw [wp_bind, wp_query]
        split
        · rename_i hnull
          obtain ⟨g, hg, hgnull⟩ := List.any_eq_true.mp hnull
          exact .blocked hown hroom.2 ((hcandidates g).mp hg) (of_decide_eq_true hgnull) _
        · rename_i hnull
          have hdecoded : ∀ g, db.HostsLive creatorId typeId sessionId g → g.attributes ≠ none := fun g hg hgnull =>
            hnull (List.any_eq_true.mpr ⟨g, (hcandidates g).mpr hg, decide_eq_true hgnull⟩)
          have hlobby : ∀ g, db₁.LiveLobby creatorId typeId sessionId g ↔ db.LiveLobby creatorId typeId sessionId g := by
            intro g
            have hlive := (mem_lobbyCandidates (t := db₁.toTables)).symm.trans (hcandidates g)
            exact ⟨fun h => ⟨hlive.mp h.toHostsLive, h.lobby⟩, fun h => ⟨hlive.mpr h.toHostsLive, h.lobby⟩⟩
          split
          · rename_i hnone
            exact .noLobby hown hdecoded (fun g hg => not_liveLobby_of_find hnone g ((hlobby g).mpr hg)) hinvites
          · rename_i g hg
            have hnewest := newestLobby_of_find hg
            have hnewest' : db.NewestLobby creatorId typeId sessionId g :=
              ⟨(hlobby g).mp hnewest.toLiveLobby, fun g' hg' => hnewest.newest g' ((hlobby g').mpr hg')⟩
            exact wp_weaken (wp_sendBack hown hdecoded hnewest' h₁) (fun _ _ h => h) fun _ he => he.elim

/-! ## What the outcomes have to do with the lobby -/

/-- Nobody is to return when nobody remains. -/
theorem returning_nil (h : remaining t creatorId sessionId = []) (lobbyId : Nat) : t.returning creatorId sessionId lobbyId = [] := by
  unfold returning
  unfold remaining at h
  rw [h]
  rfl

/-- An outcome that changes no invitation is as it should be when there is no room or no lobby, and when nobody is to return. -/
theorem sendsBack_of_unchanged {after : Database × Except StorageError (Nat × Nat)} (hinvites : after.1.invites = db.invites)
    (h : ∀ r g, db.OwnRoom creatorId typeId sessionId r → db.LiveLobby creatorId typeId sessionId g →
      remaining db.toTables creatorId sessionId = [] ∧ after.2 = .ok (1, 0)) : SendsBack creatorId typeId sessionId db after where
  invited := by
    intro r g hr hg v hv
    rw [returning_nil (h r g hr hg.toLiveLobby).1] at hv
    nomatch hv
  others := by
    intro r g hr hg v hv
    unfold invitesTo
    rw [hinvites]
  counts := by
    intro r g hr hg
    obtain ⟨hnobody, hok⟩ := h r g hr hg.toLiveLobby
    rw [returning_nil hnobody, hinvites]
    exact ⟨0, hok, rfl, rfl⟩
  unchanged _ := hinvites

/-- The room was deleted, and everybody who is to return was invited. -/
theorem sendsBack_of_restored {r g : GameSessionRow} (hr : db.OwnRoom creatorId typeId sessionId r)
    (hg : db.NewestLobby creatorId typeId sessionId g) {db' : Database} {partyId : Nat}
    (hparty : db'.partyOfLeader creatorId = some partyId)
    (hreached : ∀ v ∈ db.returning creatorId sessionId g.id, RestoredTo creatorId typeId g.id partyId v (db'.invitesTo v))
    (hothers : ∀ v, v ∉ db.returning creatorId sessionId g.id → db'.invitesTo v = db.invitesTo v)
    (hlength : db'.invites.length = db.invites.length + (db.returning creatorId sessionId g.id).length) :
    SendsBack creatorId typeId sessionId db (db', .ok (1, (db.returning creatorId sessionId g.id).length)) where
  invited := by
    intro _ g' _ hg' v hv
    rw [newestLobby_unique hg' hg] at hv ⊢
    obtain ⟨i, hrows, htype, hid, hparty', -⟩ := hreached v hv
    exact ⟨i, partyId, (unconsumed_eq db'.toTables v _).trans hrows, htype, hid, hparty', hparty⟩
  others := by
    intro _ g' _ hg' v hv
    rw [newestLobby_unique hg' hg] at hv
    exact hothers v hv
  counts := by
    intro _ g' _ hg'
    rw [newestLobby_unique hg' hg]
    exact ⟨_, rfl, rfl, hlength⟩
  unchanged h := absurd hg.toLiveLobby (h r g hr)

end LobbyRestore

open LobbyRestore

namespace LobbyRestore

/-- The user 1000, who hosts the session of the migrations, opens a lobby and a room, and the user 1001 joins the room. -/
def roomCalls : List Call :=
  [⟨1000, .createGameSession 1000 1 "113 => 1".toList⟩, ⟨1001, .createGameSession 1000 1 "113 => 0".toList⟩,
    ⟨1002, .joinGameSessionUnbounded 1001 1 3⟩]

end LobbyRestore

end Scbl.Storage
