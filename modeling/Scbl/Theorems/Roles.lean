import Scbl.ControlPlane.GameSessions

/-!
# Roles that agree

A client that is told it plays in a session of another host is told so by the session of its own address, and the host is told what the
session of the host's address says. The two agree unless the host is in a session that scores higher.
-/

namespace Scbl.ControlPlane

open Scbl.Lib Scbl.Storage

/-! ## Sessions of a snapshot -/

/-- The address of the host, if it has one, is among those of the participants. -/
def HostListed (session : AuthoritativeGameSession) : Prop :=
  session.hostVirtualIp = [] ∨ session.hostVirtualIp ∈ session.participantIps

/-- Sessions under their own ids, each id once. -/
structure WellKeyed (sessions : Sessions) : Prop where
  nodup : (sessions.map Prod.fst).Nodup
  own : ∀ item ∈ sessions, item.2.sessionId = item.1
  host : ∀ item ∈ sessions, HostListed item.2

theorem firstIp_mem {ips : List Text} (h : ips ≠ []) : firstIp ips ∈ ips := by
  obtain ⟨ip, hip⟩ := List.exists_mem_of_ne_nil _ h
  unfold firstIp
  cases hsort : ips.insertionSort (fun a b => lastOctet a ≤ lastOctet b) with
  | nil =>
    rw [← List.mem_insertionSort (fun a b => lastOctet a ≤ lastOctet b), hsort] at hip
    exact nomatch hip
  | cons first rest =>
    rw [← List.mem_insertionSort (fun a b => lastOctet a ≤ lastOctet b), hsort]
    exact List.mem_cons_self

@[simp] theorem addParticipant_sessionId (userIps : UserIps) (session : AuthoritativeGameSession) (userId : Nat) :
    (addParticipant userIps session userId).sessionId = session.sessionId := by
  simp only [addParticipant]
  split <;> rfl

theorem hostListed_addParticipant (userIps : UserIps) (userId : Nat) {session : AuthoritativeGameSession} (h : HostListed session) :
    HostListed (addParticipant userIps session userId) := by
  unfold addParticipant
  generalize (Dict.get userIps (session.sessionId, userId)).getD [] = ips
  simp only []
  split
  · rename_i hhost
    exact .inr (List.mem_union_iff.mpr (.inr (firstIp_mem hhost.2.1)))
  · rcases h with h | h
    · exact .inl h
    · exact .inr (List.mem_union_iff.mpr (.inl h))

/-- Completing a session keeps its id and lists its host. -/
theorem completed_spec {userIps : UserIps} {session : AuthoritativeGameSession} (h : HostListed session) :
    (completed userIps session).sessionId = session.sessionId ∧ HostListed (completed userIps session) := by
  unfold completed
  simp only []
  generalize hcounted : { session with participantCount := session.participantUserIds.length } = counted
  have hid : counted.sessionId = session.sessionId := by rw [← hcounted]
  have hlisted : HostListed counted := by rw [← hcounted]; exact h
  rw [← hid]
  generalize session.participantUserIds = users
  clear hcounted hid h
  induction users generalizing counted with
  | nil => exact ⟨rfl, hlisted⟩
  | cons user users ih =>
    obtain ⟨hid, hhost⟩ := ih _ (hostListed_addParticipant userIps user hlisted)
    exact ⟨by rw [List.foldl_cons, hid, addParticipant_sessionId], hhost⟩

/-- A row keeps the sessions under their own ids. -/
theorem wellKeyed_addRow {found : Sessions × UserIps} (row : SessionRow) (h : WellKeyed found.1) : WellKeyed (addRow found row).1 := by
  have hsession : ∀ session, session = (Dict.get found.1 row.sessionId).getD row.session →
      session.sessionId = row.sessionId ∧ HostListed session := by
    rintro session rfl
    cases hget : Dict.get found.1 row.sessionId with
    | none => exact ⟨rfl, .inl rfl⟩
    | some session =>
      have hmem := Dict.mem_of_get hget
      exact ⟨h.own _ hmem, h.host _ hmem⟩
  obtain ⟨hid, hlisted⟩ := hsession _ rfl
  refine ⟨Dict.nodup_set h.nodup, fun item hitem => ?_, fun item hitem => ?_⟩
  · rcases Dict.mem_set hitem with rfl | hmem
    · exact hid
    · exact h.own _ hmem
  · rcases Dict.mem_set hitem with rfl | hmem
    · exact hlisted
    · exact h.host _ hmem

theorem wellKeyed_found (rows : List SessionRow) {found : Sessions × UserIps} (h : WellKeyed found.1) :
    WellKeyed (rows.foldl addRow found).1 := by
  induction rows generalizing found with
  | nil => exact h
  | cons row rows ih => exact ih (wellKeyed_addRow row h)

/-- The host of a playable session is one of its addresses, and two playable sessions differ in their ids. -/
theorem playableSessions_spec (t : Tables) :
    (∀ session ∈ playableSessions t, session.hostVirtualIp ≠ [] ∧ session.hostVirtualIp ∈ session.participantIps) ∧
      ∀ session ∈ playableSessions t, ∀ other ∈ playableSessions t, session.sessionId = other.sessionId → session = other := by
  have hkeyed : WellKeyed ((sessionRows t).foldl addRow ([], [])).1 :=
    wellKeyed_found _ ⟨List.nodup_nil, fun _ h => (nomatch h), fun _ h => nomatch h⟩
  unfold playableSessions
  generalize (sessionRows t).foldl addRow ([], []) = found at hkeyed
  constructor
  · intro session hsession
    obtain ⟨hmem, hplayable⟩ := List.mem_filter.mp hsession
    obtain ⟨item, hitem, rfl⟩ := List.mem_map.mp hmem
    have hhost : (completed found.2 item.2).hostVirtualIp ≠ [] := by
      intro hnone
      simp [isPlayable, hnone] at hplayable
    exact ⟨hhost, (completed_spec (hkeyed.host _ hitem)).2.resolve_left hhost⟩
  · intro session hsession other hother hid
    obtain ⟨item, hitem, rfl⟩ := List.mem_map.mp (List.mem_filter.mp hsession).1
    obtain ⟨item', hitem', rfl⟩ := List.mem_map.mp (List.mem_filter.mp hother).1
    rw [(completed_spec (hkeyed.host _ hitem)).1, (completed_spec (hkeyed.host _ hitem')).1, hkeyed.own _ hitem,
      hkeyed.own _ hitem'] at hid
    rw [List.inj_on_of_nodup_map hkeyed.nodup hitem hitem' hid]

/-- Of two sessions with one score both have one id. -/
theorem sessionId_of_score {session other : AuthoritativeGameSession} (h : session.score = other.score) :
    session.sessionId = other.sessionId := by
  have hpair := congrArg (fun score : Score => (ofLex (ofLex score).2).2) h
  exact hpair

/-! ## Agreement -/

/-- A session is the one that scores highest among the playable ones of an address. -/
def IsHighest (t : Tables) (address : Text) (session : AuthoritativeGameSession) : Prop :=
  session ∈ playableSessions t ∧ address ∈ session.participantIps ∧
    ∀ other ∈ playableSessions t, address ∈ other.participantIps → other.score ≤ session.score

/-- A client is listed as one of a peer, in a session. -/
def ListedClient (item : PublicClient) (peer : Text) (sessionId : Option Nat) : Prop :=
  item.gameRole = "client".toList ∧ item.gamePeerIp = peer ∧ item.gameSessionId = sessionId

/-- A client is listed as the host of a session. -/
def ListedHost (item : PublicClient) (sessionId : Option Nat) : Prop :=
  item.gameRole = "host".toList ∧ item.gamePeerIp = [] ∧ item.gameSessionId = sessionId

/-- An address has the session that scores highest among those it is in, and has one if it is in any. -/
theorem get_loadAuthoritativeSessions (t : Tables) (address : Text) :
    (∀ session, Dict.get (loadAuthoritativeSessions t) address = some session → IsHighest t address session) ∧
      ∀ session ∈ playableSessions t, address ∈ session.participantIps →
        ∃ highest, Dict.get (loadAuthoritativeSessions t) address = some highest := by
  have hbest := isBest_bestOf AuthoritativeGameSession.score (·.participantIps) (playableSessions t) address
  rw [← loadAuthoritativeSessions] at hbest
  cases hget : Dict.get (loadAuthoritativeSessions t) address with
  | none =>
    rw [hget] at hbest
    exact ⟨fun _ h => (nomatch h), fun session hsession haddress => absurd haddress (hbest session hsession)⟩
  | some highest =>
    rw [hget] at hbest
    refine ⟨fun session h => ?_, fun _ _ _ => ⟨highest, rfl⟩⟩
    rw [← Option.some.inj h]
    exact hbest

/-- An address has one highest session. -/
theorem IsHighest.unique {t : Tables} {address : Text} {session other : AuthoritativeGameSession} (h : IsHighest t address session)
    (h' : IsHighest t address other) : session = other := by
  obtain ⟨hmem, hip, hle⟩ := h
  obtain ⟨hmem', hip', hle'⟩ := h'
  have hscore : session.score = other.score := le_antisymm (hle' _ hmem hip) (hle _ hmem' hip')
  exact (playableSessions_spec t).2 _ hmem _ hmem' (sessionId_of_score hscore)

/-- A client that the payload of its address points at another host is listed as a client of that host, in the session of the payload.
The host's own payload reports the session that scores highest among the playable ones of the host; exactly if that is the same session,
the host is told that it is the host of it, and listed so. -/
theorem roles_agree (t : Tables) (metadata : SnapshotMetadata) (c : Text)
    (hactive : (gameSessionPayload (loadAuthoritativeSessions t) metadata c).active = true)
    (hhost : (gameSessionPayload (loadAuthoritativeSessions t) metadata c).hostVirtualIp ≠ c) :
    let sessions := loadAuthoritativeSessions t
    let reported := gameSessionPayload sessions metadata c
    let host := reported.hostVirtualIp
    ∃ session highest : AuthoritativeGameSession,
      IsHighest t c session ∧ reported.sessionId = some session.sessionId ∧
      IsHighest t host highest ∧ gameSessionPayload sessions metadata host =
        { reported with
          sessionId := some highest.sessionId, sessionType := some highest.sessionType, hostUserId := some highest.hostUserId
          hostUsername := highest.hostUsername, hostVirtualIp := highest.hostVirtualIp
          requesterIsHost := host = highest.hostVirtualIp, participantCount := highest.participantCount } ∧
      (gameSessionPayload sessions metadata host = { reported with requesterIsHost := true } ↔ IsHighest t host session) ∧
      ∀ (clients : List ClientState) (i : Nat) (client : ClientState), clients[i]? = some client →
        ∃ item, (decoratedClients sessions clients)[i]? = some item ∧
          (client.virtualIp = c → ListedClient item host reported.sessionId) ∧
          (client.virtualIp = host → (ListedHost item reported.sessionId ↔ IsHighest t host session)) := by
  intro sessions reported host
  obtain ⟨session, hget⟩ : ∃ session, Dict.get sessions c = some session := by
    cases hget : Dict.get sessions c with
    | none => simp [gameSessionPayload, sessions, hget] at hactive
    | some session => exact ⟨session, rfl⟩
  have hreported : host = session.hostVirtualIp := by simp [host, reported, gameSessionPayload, hget]
  have hid : reported.sessionId = some session.sessionId := by simp [reported, gameSessionPayload, hget]
  have hc : IsHighest t c session := (get_loadAuthoritativeSessions t c).1 _ hget
  have hin : host ∈ session.participantIps := hreported ▸ ((playableSessions_spec t).1 _ hc.1).2
  obtain ⟨highest, hget'⟩ : ∃ highest, Dict.get sessions host = some highest := (get_loadAuthoritativeSessions t host).2 _ hc.1 hin
  have hh : IsHighest t host highest := (get_loadAuthoritativeSessions t host).1 _ hget'
  -- The ids tell the sessions apart, so the host is in this session exactly if it is the highest.
  have hsame : highest.sessionId = session.sessionId ↔ IsHighest t host session := by
    constructor
    · intro heq
      rw [← (playableSessions_spec t).2 _ hh.1 _ hc.1 heq]
      exact hh
    · intro h
      rw [hh.unique h]
  have hpayload : gameSessionPayload sessions metadata host =
      { reported with
        sessionId := some highest.sessionId, sessionType := some highest.sessionType, hostUserId := some highest.hostUserId
        hostUsername := highest.hostUsername, hostVirtualIp := highest.hostVirtualIp
        requesterIsHost := host = highest.hostVirtualIp, participantCount := highest.participantCount } := by
    simp only [reported, gameSessionPayload, hget, hget']
  refine ⟨session, highest, hc, hid, hh, hpayload, ?_, fun clients i client hclient => ?_⟩
  · rw [← hsame, hpayload]
    constructor
    · intro heq
      have hids := congrArg GameSessionPayload.sessionId heq
      rw [hid] at hids
      exact Option.some.inj hids
    · intro heq
      have hone : highest = session := hh.unique (hsame.mp heq)
      subst hone
      simp [reported, gameSessionPayload, hget, hreported]
  · refine ⟨decoratedClient sessions client, by simp [decoratedClients, hclient], fun hip => ?_, fun hip => ?_⟩
    · have hne : client.virtualIp ≠ session.hostVirtualIp := by
        rw [hip, ← hreported]
        exact Ne.symm hhost
      rw [← hip] at hget
      simp [ListedClient, decoratedClient, hget, hne, hreported, hid]
    · rw [← hsame, hid]
      rw [← hip] at hget'
      constructor
      · rintro ⟨-, -, hsession⟩
        simp only [decoratedClient, hget'] at hsession
        exact Option.some.inj hsession
      · intro heq
        have hone : highest = session := hh.unique (hsame.mp heq)
        have hself : client.virtualIp = highest.hostVirtualIp := by rw [hip, hreported, hone]
        rw [hself] at hget'
        simp [ListedHost, decoratedClient, hget', hself, heq]

/-- The tables of three users with an address each, some of whom play. -/
def threePlayers (gameSessions : List GameSessionRow) (participants : List ParticipantRow) : Tables where
  users := [⟨1003, "A".toList, none, none, none, false, none⟩, ⟨1006, "B".toList, none, none, none, false, none⟩,
    ⟨1008, "C".toList, none, none, none, false, none⟩]
  gameSessions := gameSessions
  participants := participants
  stationUrls := [⟨1003, "prudps:/address=10.66.0.2;port=13000".toList⟩, ⟨1006, "prudps:/address=10.66.0.4;port=13000".toList⟩,
    ⟨1008, "prudps:/address=10.66.0.8;port=13000".toList⟩]
  userSessions := []
  invites := []
  parties := []
  partyMembers := []
  partySequence := 0
  inviteLog := []

/-- A session of two players, and newer sessions that each of two players has for itself. -/
def oneRoom : Tables :=
  threePlayers [⟨39, 1, some [], 1006, none⟩, ⟨40, 1, some [], 1003, none⟩, ⟨42, 1, some [], 1008, none⟩]
    [⟨39, 1003⟩, ⟨39, 1006⟩, ⟨40, 1003⟩, ⟨42, 1008⟩]

/-- A session of two players, and a newer one of another host that the host of the first has joined. -/
def hostElsewhere : Tables :=
  threePlayers [⟨39, 1, some [], 1006, none⟩, ⟨43, 2, some [], 1008, none⟩] [⟨39, 1003⟩, ⟨39, 1006⟩, ⟨43, 1008⟩, ⟨43, 1006⟩]

theorem oneRoom_reported :
    gameSessionPayload (loadAuthoritativeSessions oneRoom) ⟨some 5, [], 7⟩ "10.66.0.2".toList =
      { active := true, authoritative := true, sessionId := some 39, sessionType := some 1, hostUserId := some 1006,
        hostUsername := "B".toList, hostVirtualIp := "10.66.0.4".toList, requesterIsHost := false, participantCount := 2,
        source := "game-server".toList, snapshotAgeMs := some 5, snapshotError := [], observedAtUnixMs := 7 } := by
  decide +kernel

/-- A session of two players is the highest of both, and so the host is told that it is the host. -/
theorem roles_agree_oneRoom :
    ∃ session, session.sessionId = 39 ∧ IsHighest oneRoom "10.66.0.2".toList session ∧
      IsHighest oneRoom "10.66.0.4".toList session := by
  have hactive : (gameSessionPayload (loadAuthoritativeSessions oneRoom) ⟨some 5, [], 7⟩ "10.66.0.2".toList).active = true := by
    rw [oneRoom_reported]
  have hhost : (gameSessionPayload (loadAuthoritativeSessions oneRoom) ⟨some 5, [], 7⟩ "10.66.0.2".toList).hostVirtualIp ≠
      "10.66.0.2".toList := by
    rw [oneRoom_reported]
    decide
  obtain ⟨session, highest, hsession, hid, -, -, hagree, -⟩ := roles_agree oneRoom ⟨some 5, [], 7⟩ "10.66.0.2".toList hactive hhost
  rw [oneRoom_reported] at hid hagree
  exact ⟨session, (Option.some.inj hid).symm, hsession, hagree.mp (by decide +kernel)⟩

/-- A player can be pointed at a host that is told it is in another session, as a client. -/
theorem roles_agree_false :
    ¬ ∀ (t : Tables) (metadata : SnapshotMetadata) (c : Text),
      let sessions := loadAuthoritativeSessions t
      let reported := gameSessionPayload sessions metadata c
      reported.active = true → reported.hostVirtualIp ≠ c →
        (gameSessionPayload sessions metadata reported.hostVirtualIp).sessionId = reported.sessionId ∧
          (gameSessionPayload sessions metadata reported.hostVirtualIp).requesterIsHost = true := by
  intro h
  have hcase := h hostElsewhere ⟨some 5, [], 7⟩ "10.66.0.2".toList (by decide +kernel) (by decide +kernel)
  revert hcase
  decide +kernel

end Scbl.ControlPlane
