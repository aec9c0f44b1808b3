import Scbl.Lib.Lists
import Scbl.Theorems.Roles

/-!
# Sessions in any order

The rows of the query are gathered in sets and dictionaries, and an address is given the session with the highest score. No two sessions
score the same, because the score ends with the id, so the sessions of a snapshot and what is told of them do not depend on the order of
the rows.
-/

namespace Scbl.ControlPlane

open Scbl.Lib Scbl.Storage

/-- The playable sessions of rows in the order in which they are returned. -/
def playableOf (rows : List SessionRow) : List AuthoritativeGameSession :=
  let found := rows.foldl addRow ([], [])
  (found.1.map (fun item => completed found.2 item.2)).filter isPlayable

/-- `_load_authoritative_sessions`, from the rows that the query returned. -/
def loadRows (rows : List SessionRow) : Snapshot :=
  bestOf AuthoritativeGameSession.score (·.participantIps) (playableOf rows)

theorem loadAuthoritativeSessions_eq (t : Tables) : loadAuthoritativeSessions t = loadRows (sessionRows t) := rfl

/-- Equal sessions: the sets have the same members. -/
structure SameSession (session other : AuthoritativeGameSession) : Prop where
  sessionId : session.sessionId = other.sessionId
  sessionType : session.sessionType = other.sessionType
  hostUserId : session.hostUserId = other.hostUserId
  hostUsername : session.hostUsername = other.hostUsername
  hostVirtualIp : session.hostVirtualIp = other.hostVirtualIp
  participantCount : session.participantCount = other.participantCount
  participantIps : session.participantIps.Perm other.participantIps
  participantUserIds : session.participantUserIds.Perm other.participantUserIds

/-- Equal maps: the same addresses, with equal sessions. -/
def SameMap (sessions others : Snapshot) : Prop := ∀ address, Option.Rel SameSession (Dict.get sessions address) (Dict.get others address)

/-! ## What the rows tell -/

/-- A user takes part in a session. -/
def TakesPart (rows : List SessionRow) (sessionId userId : Nat) : Prop := ∃ row ∈ rows, row.sessionId = sessionId ∧ row.userId = userId

/-- A user of a session has an overlay address. -/
def HasAddress (rows : List SessionRow) (sessionId userId : Nat) (ip : Text) : Prop :=
  ∃ row ∈ rows, row.sessionId = sessionId ∧ row.userId = userId ∧ ip ∈ extractOverlayIps row.url

/-- The address of the host is the one with the smallest last part, or none. -/
def HostAddress (rows : List SessionRow) (sessionId hostUserId : Nat) (ip : Text) : Prop :=
  (ip = [] ∧ ∀ other, ¬HasAddress rows sessionId hostUserId other) ∨
    HasAddress rows sessionId hostUserId ip ∧ ∀ other, HasAddress rows sessionId hostUserId other → lastOctet ip ≤ lastOctet other

/-- A session as the rows tell it. -/
structure Describes (rows : List SessionRow) (session : AuthoritativeGameSession) : Prop where
  row : ∃ row ∈ rows, row.sessionId = session.sessionId ∧ row.sessionType = session.sessionType ∧ row.creatorId = session.hostUserId ∧
    cleanText row.hostUsername 64 = session.hostUsername
  users : Lists session.participantUserIds (TakesPart rows session.sessionId)
  count : session.participantCount = session.participantUserIds.length
  ips : Lists session.participantIps (fun ip => ∃ userId, HasAddress rows session.sessionId userId ip)
  host : HostAddress rows session.sessionId session.hostUserId session.hostVirtualIp

/-- Rows of one session tell the same of it. -/
def Consistent (rows : List SessionRow) : Prop :=
  ∀ row ∈ rows, ∀ other ∈ rows, row.sessionId = other.sessionId →
    row.sessionType = other.sessionType ∧ row.creatorId = other.creatorId ∧ row.hostUsername = other.hostUsername

/-- A client is listed with the session and the host that the payload of its address reports. -/
structure Agrees (item : PublicClient) (payload : GameSessionPayload) : Prop where
  session : item.gameSessionId = payload.sessionId
  host : item.authoritativeHostVirtualIp = payload.hostVirtualIp
  role : payload.active = true → item.gameRole = if payload.requesterIsHost then "host".toList else "client".toList
  peer : payload.active = true → item.gamePeerIp = if payload.requesterIsHost then [] else payload.hostVirtualIp

/-- A session is the one that scores highest among the playable ones that the rows tell of an address. -/
def ScoresHighest (rows : List SessionRow) (address : Text) (session : AuthoritativeGameSession) : Prop :=
  Describes rows session ∧ isPlayable session = true ∧ address ∈ session.participantIps ∧
    ∀ other, Describes rows other → isPlayable other = true → address ∈ other.participantIps → other.score ≤ session.score

namespace OrderAux

variable {rows rows' : List SessionRow} {session other : AuthoritativeGameSession}

/-! ### Overlay addresses -/

theorem nodup_extractOverlayIps (url : Text) : (extractOverlayIps url).Nodup := by
  rw [extractOverlayIps]
  exact (nodup_eraseDups _).filter _

/-- The last part of an overlay address tells it from the others. -/
theorem eq_of_lastOctet {ip ip' : Text} (h : isClientOverlayIp ip = true) (h' : isClientOverlayIp ip' = true)
    (hlast : lastOctet ip = lastOctet ip') : ip = ip' := by
  have hoctets : ∀ {ip : Text}, isClientOverlayIp ip = true → ipv4Octets ip = some [10, 66, 0, lastOctet ip] := by
    intro ip h
    rw [isClientOverlayIp] at h
    split at h
    · rename_i n hn
      have hsplit := splitOn_of_ipv4Octets hn
      rw [hn, lastOctet, hsplit]
      simp [digitsValue_toDigits]
    · nomatch h
  have ho := hoctets h
  rw [hlast] at ho
  exact ipv4Octets_inj ho (hoctets h')

theorem overlay_of_hasAddress {sessionId userId : Nat} {ip : Text} (h : HasAddress rows sessionId userId ip) : isClientOverlayIp ip = true := by
  obtain ⟨row, -, -, -, hip⟩ := h
  exact (List.mem_filter.1 hip).2

/-! ### Gathering the rows -/

/-- What is found after some rows: the sessions and addresses that they tell. -/
structure Gathered (rows : List SessionRow) (found : Sessions × UserIps) : Prop where
  keyed : WellKeyed found.1
  present : ∀ row ∈ rows, (Dict.get found.1 row.sessionId).isSome = true
  row : ∀ sessionId session, Dict.get found.1 sessionId = some session → ∃ row ∈ rows, row.sessionId = sessionId ∧
    session = { row.session with participantUserIds := session.participantUserIds }
  users : ∀ sessionId session, Dict.get found.1 sessionId = some session → Lists session.participantUserIds (TakesPart rows sessionId)
  ips : ∀ sessionId userId, Lists ((Dict.get found.2 (sessionId, userId)).getD []) (HasAddress rows sessionId userId)

theorem takesPart_append {row : SessionRow} {sessionId userId : Nat} :
    TakesPart (rows ++ [row]) sessionId userId ↔ TakesPart rows sessionId userId ∨ row.sessionId = sessionId ∧ row.userId = userId := by
  simp [TakesPart, or_and_right, exists_or]

theorem hasAddress_append {row : SessionRow} {sessionId userId : Nat} {ip : Text} :
    HasAddress (rows ++ [row]) sessionId userId ip ↔
      HasAddress rows sessionId userId ip ∨ row.sessionId = sessionId ∧ row.userId = userId ∧ ip ∈ extractOverlayIps row.url := by
  simp [HasAddress, or_and_right, exists_or]

/-- The session that a row adds its participant to. -/
theorem Gathered.joined {found : Sessions × UserIps} (h : Gathered rows found) (row : SessionRow) {session : AuthoritativeGameSession}
    (hsession : session = (Dict.get found.1 row.sessionId).getD row.session) :
    (∃ first ∈ rows ++ [row], first.sessionId = row.sessionId ∧
        session = { first.session with participantUserIds := session.participantUserIds }) ∧
      Lists session.participantUserIds (TakesPart rows row.sessionId) := by
  cases hget : Dict.get found.1 row.sessionId with
  | some old =>
    rw [hget] at hsession
    obtain rfl : session = old := hsession
    obtain ⟨first, hfirst, hid, hold⟩ := h.row _ _ hget
    exact ⟨⟨first, List.mem_append_left _ hfirst, hid, hold⟩, h.users _ _ hget⟩
  | none =>
    rw [hget] at hsession
    obtain rfl : session = row.session := hsession
    refine ⟨⟨row, by simp, rfl, rfl⟩, List.nodup_nil, fun userId => iff_of_false List.not_mem_nil ?_⟩
    rintro ⟨other, hother, hid, -⟩
    have hpresent := h.present other hother
    rw [hid, hget] at hpresent
    nomatch hpresent

/-- A row is gathered after the others. -/
theorem gathered_addRow {found : Sessions × UserIps} (row : SessionRow) (h : Gathered rows found) :
    Gathered (rows ++ [row]) (addRow found row) := by
  obtain ⟨hrow, husers⟩ := h.joined row rfl
  refine { keyed := wellKeyed_addRow row h.keyed, present := ?_, row := ?_, users := ?_, ips := ?_ }
  · intro other hother
    by_cases hid : other.sessionId = row.sessionId
    · rw [hid, addRow, Dict.get_set_self]
      rfl
    · rw [addRow, Dict.get_set_other _ _ hid]
      rcases List.mem_append.1 hother with hold | hnew
      · exact h.present other hold
      · exact absurd (congrArg SessionRow.sessionId (List.mem_singleton.1 hnew)) hid
  · intro sessionId session hsession
    by_cases hid : sessionId = row.sessionId
    · subst hid
      rw [addRow, Dict.get_set_self] at hsession
      obtain rfl := Option.some.inj hsession
      obtain ⟨first, hfirst, hid, hjoined⟩ := hrow
      refine ⟨first, hfirst, hid, ?_⟩
      dsimp only
      rw [hjoined]
    · rw [addRow, Dict.get_set_other _ _ hid] at hsession
      obtain ⟨first, hfirst, hfirstId, hold⟩ := h.row _ _ hsession
      exact ⟨first, List.mem_append_left _ hfirst, hfirstId, hold⟩
  · intro sessionId session hsession
    by_cases hid : sessionId = row.sessionId
    · subst hid
      rw [addRow, Dict.get_set_self] at hsession
      obtain rfl := Option.some.inj hsession
      refine (husers.union (lists_singleton row.userId)).congr fun userId => ?_
      rw [takesPart_append]
      simp
    · rw [addRow, Dict.get_set_other _ _ hid] at hsession
      refine (h.users _ _ hsession).congr fun userId => ?_
      rw [takesPart_append]
      exact ⟨Or.inl, fun hpart => hpart.resolve_right fun hnew => hid hnew.1.symm⟩
  · intro sessionId userId
    by_cases hkey : (sessionId, userId) = (row.sessionId, row.userId)
    · obtain ⟨rfl, rfl⟩ := Prod.mk.inj hkey
      rw [addRow, Dict.get_set_self, Option.getD_some]
      refine ((h.ips row.sessionId row.userId).union (lists_self (nodup_extractOverlayIps row.url))).congr fun ip => ?_
      rw [hasAddress_append]
      simp
    · rw [addRow, Dict.get_set_other _ _ hkey]
      refine (h.ips sessionId userId).congr fun ip => ?_
      rw [hasAddress_append]
      refine ⟨Or.inl, fun hip => hip.resolve_right ?_⟩
      rintro ⟨hid, huser, -⟩
      exact hkey (by rw [hid, huser])

theorem gathered_rows (rows : List SessionRow) : Gathered rows (rows.foldl addRow ([], [])) := by
  induction rows using List.reverseRecOn with
  | nil =>
    refine { keyed := ⟨List.nodup_nil, fun _ h => (nomatch h), fun _ h => nomatch h⟩, present := fun _ h => (nomatch h), row := ?_,
             users := ?_, ips := ?_ }
    · intro _ _ h
      rw [List.foldl_nil, Dict.get_nil] at h
      nomatch h
    · intro _ _ h
      rw [List.foldl_nil, Dict.get_nil] at h
      nomatch h
    · exact fun _ _ => lists_nil.congr fun _ => by simp [HasAddress]
  | append_singleton rows row ih =>
    rw [List.foldl_append]
    exact gathered_addRow row ih

/-! ### Completing a session -/

/-- The first address has the smallest last part. -/
theorem lastOctet_firstIp_le {ips : List Text} {ip : Text} (h : ip ∈ ips) : lastOctet (firstIp ips) ≤ lastOctet ip := by
  have hsorted := List.pairwise_insertionSort (fun a b => lastOctet a ≤ lastOctet b) ips
  rw [← List.mem_insertionSort (fun a b => lastOctet a ≤ lastOctet b)] at h
  rw [firstIp]
  cases hsort : ips.insertionSort (fun a b => lastOctet a ≤ lastOctet b) with
  | nil =>
    rw [hsort] at h
    nomatch h
  | cons first rest =>
    rw [hsort] at h hsorted
    rcases List.mem_cons.1 h with rfl | hrest
    · exact le_refl _
    · exact List.rel_of_pairwise_cons hsorted hrest

/-- What the session is after some of its participants were added. -/
structure Added (userIps : UserIps) (before : AuthoritativeGameSession) (userIds : List Nat) (session : AuthoritativeGameSession) : Prop where
  rest : session = { before with participantIps := session.participantIps, hostVirtualIp := session.hostVirtualIp }
  ips : Lists session.participantIps (fun ip => ∃ userId ∈ userIds, ip ∈ (Dict.get userIps (before.sessionId, userId)).getD [])
  host : session.hostVirtualIp =
    if before.hostUserId ∈ userIds then firstIp ((Dict.get userIps (before.sessionId, before.hostUserId)).getD []) else []

theorem added_participants {userIps : UserIps} {before : AuthoritativeGameSession} (hips : before.participantIps = [])
    (hhost : before.hostVirtualIp = []) (hnodup : ∀ userId, ((Dict.get userIps (before.sessionId, userId)).getD []).Nodup)
    (userIds : List Nat) : Added userIps before userIds (userIds.foldl (addParticipant userIps) before) := by
  induction userIds using List.reverseRecOn with
  | nil =>
    refine { rest := rfl, ips := ?_, host := ?_ }
    · rw [List.foldl_nil, hips]
      exact lists_nil.congr fun _ => by simp
    · rw [List.foldl_nil, hhost]
      rfl
  | append_singleton userIds userId ih =>
    rw [List.foldl_append]
    generalize userIds.foldl (addParticipant userIps) before = session at ih
    have hid : session.sessionId = before.sessionId := by rw [ih.rest]
    have hhostId : session.hostUserId = before.hostUserId := by rw [ih.rest]
    show Added userIps before (userIds ++ [userId]) (addParticipant userIps session userId)
    have hunion := ih.ips.union (lists_self (hnodup userId))
    refine { rest := ?_, ips := ?_, host := ?_ }
    · unfold addParticipant
      dsimp only
      split
      · rw [ih.rest]
      · rw [ih.rest]
    · have hadded : (addParticipant userIps session userId).participantIps =
          session.participantIps ∪ (Dict.get userIps (before.sessionId, userId)).getD [] := by
        unfold addParticipant
        dsimp only
        rw [hid]
        split
        · rfl
        · rfl
      rw [hadded]
      exact hunion.congr fun ip => by simp [or_and_right, exists_or]
    · have hadded : (addParticipant userIps session userId).hostVirtualIp =
          if userId = before.hostUserId ∧ (Dict.get userIps (before.sessionId, userId)).getD [] ≠ [] ∧ session.hostVirtualIp = [] then
            firstIp ((Dict.get userIps (before.sessionId, userId)).getD []) else session.hostVirtualIp := by
        unfold addParticipant
        dsimp only
        rw [hid, hhostId]
        split
        · rfl
        · rfl
      rw [hadded, ih.host]
      by_cases huser : userId = before.hostUserId
      · subst huser
        generalize (Dict.get userIps (before.sessionId, before.hostUserId)).getD [] = ips
        by_cases hnone : ips = []
        · subst hnone
          simp [firstIp]
        · by_cases hmem : before.hostUserId ∈ userIds
          · simp [hmem, hnone]
          · simp [hmem, hnone]
      · have hmem : before.hostUserId ∈ userIds ++ [userId] ↔ before.hostUserId ∈ userIds := by
          simp [Ne.symm huser]
        simp only [huser, false_and, if_false, hmem]

theorem takesPart_of_hasAddress {sessionId userId : Nat} {ip : Text} (h : HasAddress rows sessionId userId ip) : TakesPart rows sessionId userId := by
  obtain ⟨row, hrow, hid, huser, -⟩ := h
  exact ⟨row, hrow, hid, huser⟩

/-- The first of the addresses of the host. -/
theorem hostAddress_firstIp {sessionId hostUserId : Nat} {ips : List Text} (h : Lists ips (HasAddress rows sessionId hostUserId)) :
    HostAddress rows sessionId hostUserId (firstIp ips) := by
  by_cases hnone : ips = []
  · subst hnone
    exact .inl ⟨rfl, fun other hother => nomatch (h.mem other).2 hother⟩
  · exact .inr ⟨(h.mem _).1 (firstIp_mem hnone), fun other hother => lastOctet_firstIp_le ((h.mem other).2 hother)⟩

/-- A session that was found is completed to what the rows tell of it. -/
theorem Gathered.describes {found : Sessions × UserIps} (h : Gathered rows found) {sessionId : Nat}
    (hsession : Dict.get found.1 sessionId = some session) :
    Describes rows (completed found.2 session) ∧ (completed found.2 session).sessionId = sessionId := by
  obtain ⟨row, hrow, hid, hopened⟩ := h.row _ _ hsession
  have husers := h.users _ _ hsession
  let before : AuthoritativeGameSession := { session with participantCount := session.participantUserIds.length }
  have hbefore : before.sessionId = sessionId ∧ before.participantIps = [] ∧ before.hostVirtualIp = [] := by
    refine ⟨?_, ?_, ?_⟩
    · show session.sessionId = sessionId
      rw [hopened]
      exact hid
    · show session.participantIps = []
      rw [hopened]
      rfl
    · show session.hostVirtualIp = []
      rw [hopened]
      rfl
  have hadded : Added found.2 before session.participantUserIds (completed found.2 session) :=
    added_participants hbefore.2.1 hbefore.2.2 (fun userId => (h.ips _ userId).nodup) _
  generalize completed found.2 session = complete at hadded
  have hcomplete : complete.sessionId = sessionId ∧ complete.participantUserIds = session.participantUserIds ∧
      complete.participantCount = session.participantUserIds.length := by
    rw [hadded.rest]
    exact ⟨hbefore.1, rfl, rfl⟩
  have hrow' : row.sessionType = complete.sessionType ∧ row.creatorId = complete.hostUserId ∧
      cleanText row.hostUsername 64 = complete.hostUsername := by
    rw [hadded.rest]
    show row.sessionType = session.sessionType ∧ row.creatorId = session.hostUserId ∧ cleanText row.hostUsername 64 = session.hostUsername
    rw [hopened]
    exact ⟨rfl, rfl, rfl⟩
  have hhost : before.hostUserId = complete.hostUserId := by rw [hadded.rest]
  have hips := hadded.ips
  have hhostIp := hadded.host
  rw [hbefore.1] at hips hhostIp
  rw [hhost] at hhostIp
  refine ⟨{ row := ⟨row, hrow, hid.trans hcomplete.1.symm, hrow'⟩, users := ?_, count := ?_, ips := ?_, host := ?_ }, hcomplete.1⟩
  · rw [hcomplete.1, hcomplete.2.1]
    exact husers
  · rw [hcomplete.2.1, hcomplete.2.2]
  · rw [hcomplete.1]
    refine hips.congr fun ip => ⟨?_, ?_⟩
    · rintro ⟨userId, -, hip⟩
      exact ⟨userId, ((h.ips sessionId userId).mem ip).1 hip⟩
    · rintro ⟨userId, hip⟩
      exact ⟨userId, (husers.mem userId).2 (takesPart_of_hasAddress hip), ((h.ips sessionId userId).mem ip).2 hip⟩
  · rw [hcomplete.1, hhostIp]
    split
    · exact hostAddress_firstIp (h.ips sessionId complete.hostUserId)
    · rename_i habsent
      exact .inl ⟨rfl, fun ip hip => habsent ((husers.mem _).2 (takesPart_of_hasAddress hip))⟩

/-! ### The sessions of the rows -/

/-- A playable session is told by the rows. -/
theorem describes_of_mem (h : session ∈ playableOf rows) : Describes rows session ∧ isPlayable session = true := by
  obtain ⟨hmem, hplayable⟩ := List.mem_filter.1 h
  obtain ⟨⟨sessionId, opened⟩, hitem, rfl⟩ := List.mem_map.1 hmem
  have hgathered := gathered_rows rows
  exact ⟨(hgathered.describes (Dict.get_of_mem hgathered.keyed.nodup hitem)).1, hplayable⟩

/-- A session is told by the rows in one way. -/
theorem same_of_describes (h : Describes rows session) (h' : Describes rows' other) (hrows : ∀ row, row ∈ rows ↔ row ∈ rows')
    (hconsistent : Consistent rows) (hid : session.sessionId = other.sessionId) : SameSession session other := by
  have hpart : ∀ userId, TakesPart rows session.sessionId userId ↔ TakesPart rows' other.sessionId userId := by
    intro userId
    rw [hid]
    exact exists_congr fun row => and_congr_left fun _ => hrows row
  have haddress : ∀ userId ip, HasAddress rows session.sessionId userId ip ↔ HasAddress rows' other.sessionId userId ip := by
    intro userId ip
    rw [hid]
    exact exists_congr fun row => and_congr_left fun _ => hrows row
  obtain ⟨row, hrow, hrowId, htype, hcreator, hname⟩ := h.row
  obtain ⟨row', hrow', hrowId', htype', hcreator', hname'⟩ := h'.row
  obtain ⟨htypes, hcreators, hnames⟩ := hconsistent row hrow row' ((hrows row').2 hrow') (by rw [hrowId, hrowId', hid])
  have hhost : session.hostUserId = other.hostUserId := by rw [← hcreator, hcreators, hcreator']
  have husers := h.users.perm h'.users hpart
  refine { sessionId := hid, sessionType := ?_, hostUserId := hhost, hostUsername := ?_, hostVirtualIp := ?_, participantCount := ?_,
           participantIps := ?_, participantUserIds := husers }
  · rw [← htype, htypes, htype']
  · rw [← hname, hnames, hname']
  · rcases h.host with ⟨hnone, hno⟩ | ⟨hhas, hle⟩
    · rcases h'.host with ⟨hnone', -⟩ | ⟨hhas', -⟩
      · rw [hnone, hnone']
      · exact absurd ((haddress _ _).2 (hhost ▸ hhas')) (hno _)
    · rcases h'.host with ⟨-, hno'⟩ | ⟨hhas', hle'⟩
      · exact absurd (hhost ▸ (haddress _ _).1 hhas) (hno' _)
      · have hthere : HasAddress rows' other.sessionId other.hostUserId session.hostVirtualIp := hhost ▸ (haddress _ _).1 hhas
        have hback : HasAddress rows session.sessionId session.hostUserId other.hostVirtualIp := (haddress _ _).2 (hhost ▸ hhas')
        exact eq_of_lastOctet (overlay_of_hasAddress hhas) (overlay_of_hasAddress hhas') (le_antisymm (hle _ hback) (hle' _ hthere))
  · rw [h.count, h'.count, husers.length_eq]
  · exact h.ips.perm h'.ips fun ip => exists_congr fun userId => haddress userId ip

theorem score_of_same (h : SameSession session other) : session.score = other.score := by
  rw [AuthoritativeGameSession.score, AuthoritativeGameSession.score, h.participantIps.length_eq, h.participantCount, h.sessionId]

theorem isPlayable_of_same (h : SameSession session other) : isPlayable session = isPlayable other := by
  rw [isPlayable, isPlayable, h.hostVirtualIp, h.participantCount, h.participantIps.length_eq]

/-- A playable session that some rows tell is one of those of the same rows in another order. -/
theorem exists_playable (h : Describes rows session) (hplayable : isPlayable session = true) (hrows : ∀ row, row ∈ rows ↔ row ∈ rows')
    (hconsistent : Consistent rows) : ∃ other ∈ playableOf rows', SameSession session other := by
  obtain ⟨row, hrow, hrowId, -⟩ := h.row
  have hgathered := gathered_rows rows'
  obtain ⟨opened, hopened⟩ := Option.isSome_iff_exists.1 (hgathered.present row ((hrows row).1 hrow))
  obtain ⟨hdescribes, hid⟩ := hgathered.describes hopened
  have hsame := same_of_describes h hdescribes hrows hconsistent (by rw [hid, hrowId])
  refine ⟨_, List.mem_filter.2 ⟨List.mem_map.2 ⟨_, Dict.mem_of_get hopened, rfl⟩, ?_⟩, hsame⟩
  rw [← isPlayable_of_same hsame]
  exact hplayable

/-- Two playable sessions of one id are one. -/
theorem eq_of_sessionId (h : session ∈ playableOf rows) (h' : other ∈ playableOf rows) (hid : session.sessionId = other.sessionId) :
    session = other := by
  have hgathered := gathered_rows rows
  obtain ⟨⟨sessionId, opened⟩, hitem, rfl⟩ := List.mem_map.1 (List.mem_filter.1 h).1
  obtain ⟨⟨sessionId', opened'⟩, hitem', rfl⟩ := List.mem_map.1 (List.mem_filter.1 h').1
  have hget := Dict.get_of_mem hgathered.keyed.nodup hitem
  have hget' := Dict.get_of_mem hgathered.keyed.nodup hitem'
  rw [(hgathered.describes hget).2, (hgathered.describes hget').2] at hid
  subst hid
  rw [Option.some.inj (hget.symm.trans hget')]

/-- The sessions of an address do not depend on the order of the rows. -/
theorem sameMap_loadRows (hrows : ∀ row, row ∈ rows ↔ row ∈ rows') (hconsistent : Consistent rows) :
    SameMap (loadRows rows) (loadRows rows') := by
  have hconsistent' : Consistent rows' := fun row hrow other hother => hconsistent row ((hrows row).2 hrow) other ((hrows other).2 hother)
  refine bestOf_rel AuthoritativeGameSession.score ?_ ?_ ?_ (fun _ _ h => score_of_same h) ?_
  · intro session hsession
    obtain ⟨hdescribes, hplayable⟩ := describes_of_mem hsession
    exact exists_playable hdescribes hplayable hrows hconsistent
  · intro other hother
    obtain ⟨hdescribes, hplayable⟩ := describes_of_mem hother
    obtain ⟨session, hsession, hsame⟩ := exists_playable hdescribes hplayable (fun row => (hrows row).symm) hconsistent'
    exact ⟨session, hsession, same_of_describes (describes_of_mem hsession).1 hdescribes hrows hconsistent hsame.sessionId.symm⟩
  · exact fun _ _ h address => h.participantIps.mem_iff
  · exact fun session hsession other hother hscore => eq_of_sessionId hsession hother (sessionId_of_score hscore)

/-- An address has the playable session that scores highest among those that the rows tell of it, and has one if there is one. -/
theorem get_loadRows (hconsistent : Consistent rows) (address : Text) :
    (∀ session, Dict.get (loadRows rows) address = some session → ScoresHighest rows address session) ∧
      ∀ session, Describes rows session → isPlayable session = true → address ∈ session.participantIps →
        (Dict.get (loadRows rows) address).isSome = true := by
  have hbest := isBest_bestOf AuthoritativeGameSession.score (·.participantIps) (playableOf rows) address
  rw [← loadRows] at hbest
  cases hget : Dict.get (loadRows rows) address with
  | none =>
    rw [hget] at hbest
    refine ⟨fun _ h => (nomatch h), fun session hdescribes hplayable haddress => ?_⟩
    obtain ⟨other, hother, hsame⟩ := exists_playable hdescribes hplayable (fun _ => Iff.rfl) hconsistent
    exact absurd (hsame.participantIps.mem_iff.1 haddress) (hbest other hother)
  | some highest =>
    rw [hget] at hbest
    refine ⟨fun session h => ?_, fun _ _ _ _ => rfl⟩
    obtain rfl := Option.some.inj h
    obtain ⟨hdescribes, hplayable⟩ := describes_of_mem hbest.1
    refine ⟨hdescribes, hplayable, hbest.2.1, fun other hother hotherPlayable haddress => ?_⟩
    obtain ⟨same, hmem, hsame⟩ := exists_playable hother hotherPlayable (fun _ => Iff.rfl) hconsistent
    rw [score_of_same hsame]
    exact hbest.2.2 same hmem (hsame.participantIps.mem_iff.1 haddress)

/-! ### The answers -/

/-- The rows of the query are consistent: an id is that of one session, with one creator. -/
theorem consistent_sessionRows (db : Database) : Consistent (sessionRows db.toTables) := by
  have hrow : ∀ row ∈ sessionRows db.toTables, ∃ g ∈ db.gameSessions, ∃ host ∈ db.users, host.id = g.creatorId ∧ row.sessionId = g.id ∧
      row.sessionType = g.typeId ∧ row.creatorId = g.creatorId ∧ row.hostUsername = host.username := by
    intro row hrow
    obtain ⟨g, hg, hrow⟩ := List.mem_flatMap.1 hrow
    obtain ⟨host, hhost, hrow⟩ := List.mem_flatMap.1 hrow
    obtain ⟨p, -, hrow⟩ := List.mem_flatMap.1 hrow
    obtain ⟨url, -, rfl⟩ := List.mem_map.1 hrow
    obtain ⟨hmem, hid⟩ := List.mem_filter.1 hhost
    rw [List.mem_insertionSort] at hg
    exact ⟨g, (List.mem_filter.1 hg).1, host, hmem, of_decide_eq_true hid, rfl, rfl, rfl, rfl⟩
  intro row hmem other hother hid
  obtain ⟨g, hg, host, hhost, hcreator, hsession, htype, hcreatorId, hname⟩ := hrow row hmem
  obtain ⟨g', hg', host', hhost', hcreator', hsession', htype', hcreatorId', hname'⟩ := hrow other hother
  obtain rfl : g = g' := List.inj_on_of_nodup_map db.keys.gameSessions hg hg' (by rw [← hsession, hid, hsession'])
  obtain rfl : host = host' := List.inj_on_of_nodup_map db.keys.users hhost hhost' (by rw [hcreator, hcreator'])
  exact ⟨htype.trans htype'.symm, hcreatorId.trans hcreatorId'.symm, hname.trans hname'.symm⟩

variable {sessions others : Snapshot}

theorem gameSessionPayload_congr (h : SameMap sessions others) (metadata : SnapshotMetadata) (ip : Text) :
    gameSessionPayload sessions metadata ip = gameSessionPayload others metadata ip := by
  have hrel := h ip
  rw [gameSessionPayload, gameSessionPayload]
  generalize Dict.get sessions ip = found at hrel
  generalize Dict.get others ip = found' at hrel
  cases hrel with
  | none => rfl
  | some hsame =>
    dsimp only
    rw [hsame.sessionId, hsame.sessionType, hsame.hostUserId, hsame.hostUsername, hsame.hostVirtualIp, hsame.participantCount]

theorem decoratedClients_congr (h : SameMap sessions others) (clients : List ClientState) :
    decoratedClients sessions clients = decoratedClients others clients := by
  refine List.map_congr_left fun client _ => ?_
  have hrel := h client.virtualIp
  rw [decoratedClient, decoratedClient]
  generalize Dict.get sessions client.virtualIp = found at hrel
  generalize Dict.get others client.virtualIp = found' at hrel
  cases hrel with
  | none => rfl
  | some hsame =>
    dsimp only
    rw [hsame.sessionId, hsame.hostVirtualIp]

theorem agrees_decoratedClient (sessions : Snapshot) (metadata : SnapshotMetadata) (client : ClientState) :
    Agrees (decoratedClient sessions client) (gameSessionPayload sessions metadata client.virtualIp) := by
  rw [decoratedClient, gameSessionPayload]
  cases Dict.get sessions client.virtualIp with
  | none => exact ⟨rfl, rfl, (fun h => by cases h), (fun h => by cases h)⟩
  | some session => exact ⟨rfl, rfl, fun _ => by simp, fun _ => by simp⟩

end OrderAux

open OrderAux

/-- The rows in any two orders give the same map. It maps an address to the playable session that scores highest among those that the rows
tell of the address, if there is one, and a client is listed with the session and the host that the payload of its address reports. -/
theorem sessions_order_independent (db : Database) (rows rows' : List SessionRow) (h : rows.Perm (sessionRows db.toTables))
    (h' : rows'.Perm (sessionRows db.toTables)) :
    SameMap (loadRows rows) (loadRows rows') ∧
      (∀ address, (∀ session, Dict.get (loadRows rows) address = some session → ScoresHighest rows address session) ∧
        ∀ session, Describes rows session → isPlayable session = true → address ∈ session.participantIps →
          (Dict.get (loadRows rows) address).isSome = true) ∧
      (∀ metadata ip, gameSessionPayload (loadRows rows) metadata ip = gameSessionPayload (loadRows rows') metadata ip) ∧
      ∀ clients, decoratedClients (loadRows rows) clients = decoratedClients (loadRows rows') clients ∧
        ∀ (metadata : SnapshotMetadata) (i : Nat) (client : ClientState), clients[i]? = some client →
          ∃ item, (decoratedClients (loadRows rows) clients)[i]? = some item ∧
            Agrees item (gameSessionPayload (loadRows rows) metadata client.virtualIp) := by
  have hconsistent : Consistent rows := fun row hrow other hother =>
    consistent_sessionRows db row (h.mem_iff.1 hrow) other (h.mem_iff.1 hother)
  have hsame : SameMap (loadRows rows) (loadRows rows') := sameMap_loadRows (fun _ => (h.trans h'.symm).mem_iff) hconsistent
  refine ⟨hsame, get_loadRows hconsistent, gameSessionPayload_congr hsame, fun clients => ⟨decoratedClients_congr hsame clients, ?_⟩⟩
  intro metadata i client hclient
  exact ⟨_, by rw [decoratedClients, List.getElem?_map, hclient]; rfl, agrees_decoratedClient _ metadata client⟩

/-- The tables of a session of two players and of one each of them has for itself, with the constraints of the schema. -/
def oneRoomDatabase : Database := { oneRoom with keys := by decide, references := by decide }

/-- The rows of the room and the reversed ones give the same map. -/
theorem oneRoom_order_independent : SameMap (loadRows (sessionRows oneRoom)) (loadRows (sessionRows oneRoom).reverse) :=
  (sessions_order_independent oneRoomDatabase (sessionRows oneRoom) (sessionRows oneRoom).reverse (List.Perm.refl _)
    (List.reverse_perm _)).1

end Scbl.ControlPlane
