import Scbl.Theorems.Attributes
import Scbl.Theorems.Preservation

/-!
# Matchmaking

What a search for sessions by their attributes finds: the sessions that match the query, one result for each, in the order of the
table. The store reads the attributes of every active session of the type as a text, and one of them without attributes makes the
whole search fail.
-/

namespace Scbl.Services.GameSessionExService

open Scbl.Lib Scbl.Rmc Scbl.Prudp Scbl.Storage Scbl.Services.GameSessionService

/-- The value of the last property with an id. -/
def lastValue (properties : List Property) (id : UInt32) : Option UInt32 :=
  (properties.reverse.find? (fun property => property.id = id)).map (·.value)

/-- The value that some parameters ask of an attribute: of attribute 103 the value 0 when they do not say. -/
def requestedValue (parameters : List Property) (id : UInt32) : Option UInt32 :=
  if id = 103 then some ((lastValue parameters 103).getD 0) else lastValue parameters id

/-- A session matches a query of a user. -/
structure Matches (t : Tables) (userId : UInt32) (query : GameSessionQuery) (g : GameSessionRow) : Prop where
  active : g.destroyedAt = none
  sessionType : g.typeId = query.typeId.toNat
  foreign : g.creatorId ≠ userId.toNat
  host : { gameId := g.id, userId := g.creatorId } ∈ t.participants
  endpoint : ∃ r ∈ t.stationUrls, r.userId = g.creatorId
  attributes : ∃ text properties, g.attributes = some text ∧ parseProperties text = some properties ∧
    ∀ id value, id ≠ 112 → requestedValue query.parameters id = some value → lastValue properties id = some value

/-- A result is that of a session. -/
structure IsResult (g : GameSessionRow) (result : GameSessionSearchResultEx) : Prop where
  sessionKey : result.gameSessionSearchResult.sessionKey = { typeId := UInt32.ofNat g.typeId, sessionId := UInt32.ofNat g.id }
  hostPid : result.gameSessionSearchResult.hostPid = UInt32.ofNat g.creatorId
  attributes : ∃ text, g.attributes = some text ∧ parseProperties text = some result.gameSessionSearchResult.attributes

/-- A search answers with the sessions that match, one result for each. -/
def SearchExact (c : Caller) (st : CallState) (userId : UInt32) (query : GameSessionQuery) : Prop :=
  ∃ st' results rows, searchSessions query c st = .ok (st', .ok results) ∧ List.Forall₂ IsResult rows results ∧
    (rows.map (·.id)).Nodup ∧ ∀ g, g ∈ rows ↔ g ∈ st.db.gameSessions ∧ Matches st.db.toTables userId query g

namespace Matchmaking

/-! ### The attributes -/

/-- The map of some properties has their last values. -/
theorem lookup_propertyMap (properties : List Property) (id : UInt32) :
    (propertyMap properties).lookup id = lastValue properties id := by
  rw [propertyMap, lookup_insertAll, AList.lookup_empty, Option.or_none, ← List.map_reverse, List.find?_map, Option.map_map]
  rfl

theorem lookup_requestedAttributes (parameters : List Property) (id : UInt32) :
    (requestedAttributes parameters).lookup id = requestedValue parameters id := by
  unfold requestedAttributes requestedValue
  dsimp only
  rw [lookup_propertyMap]
  cases hrequested : lastValue parameters 103 with
  | some value =>
    by_cases hid : id = 103
    · rw [if_pos hid, hid]
      exact (lookup_propertyMap parameters 103).trans hrequested
    · rw [if_neg hid]
      exact lookup_propertyMap parameters id
  | none =>
    by_cases hid : id = 103
    · rw [if_pos hid, hid]
      exact AList.lookup_insert _
    · rw [if_neg hid]
      exact (AList.lookup_insert_ne hid).trans (lookup_propertyMap parameters id)

theorem attributesMatch_iff (reqAttrs sessAttrs : AList (fun _ : UInt32 => UInt32)) :
    attributesMatch reqAttrs sessAttrs = true ↔
      ∀ id value, id ≠ 112 → reqAttrs.lookup id = some value → sessAttrs.lookup id = some value := by
  simp only [attributesMatch, List.all_eq_true, decide_eq_true_eq]
  constructor
  · intro h id value hid hl
    exact (h ⟨id, value⟩ (AList.mem_lookup_iff.mp hl)).resolve_left hid
  · intro h e he
    by_cases hid : e.1 = 112
    · exact Or.inl hid
    · exact Or.inr (h e.1 e.2 hid (AList.mem_lookup_iff.mpr he))

/-- A session is kept when its attributes can be read and have the values asked for. -/
theorem searchKeeps_iff (parameters : List Property) (session : Storage.GameSession) :
    searchKeeps (requestedAttributes parameters) session = true ↔ ∃ properties, parseProperties session.attributes = some properties ∧
      ∀ id value, id ≠ 112 → requestedValue parameters id = some value → lastValue properties id = some value := by
  unfold searchKeeps
  cases parseProperties session.attributes with
  | none =>
    constructor
    · exact fun h => nomatch h
    · exact fun ⟨_, h, _⟩ => nomatch h
  | some properties =>
    simp only [attributesMatch_iff, lookup_requestedAttributes, lookup_propertyMap]
    constructor
    · exact fun h => ⟨properties, rfl, h⟩
    · rintro ⟨properties', h, hmatch⟩
      rw [Option.some.inj h]
      exact hmatch

/-! ### The sessions of the store -/

/-- The session of a row, as a search reads it for a user. -/
def searched (t : Tables) (userId : Nat) (g : GameSessionRow) : Storage.GameSession where
  sessionType := g.typeId
  sessionId := g.id
  creatorId := g.creatorId
  attributes := g.attributes.getD []
  participants := ((t.participants.filter (·.gameId = g.id)).map (·.userId)).filterMap
    (t.participant (fun v => if some userId = some v then [] else t.urlsOf v))

/-- The rows that a search of a user reads. -/
def candidates (t : Tables) (userId typeId : Nat) : List GameSessionRow :=
  t.gameSessions.filter (fun g => g.typeId = typeId ∧ some g.creatorId ≠ some userId ∧ g.destroyedAt = none)

theorem mem_candidates {t : Tables} {userId typeId : Nat} {g : GameSessionRow} :
    g ∈ candidates t userId typeId ↔ g ∈ t.gameSessions ∧ g.typeId = typeId ∧ g.creatorId ≠ userId ∧ g.destroyedAt = none := by
  rw [candidates, List.mem_filter, decide_eq_true_eq, ne_eq, Option.some_inj]

/-- Results are computed for all elements when they are for each. -/
theorem mapM_eq_ok {ε α β : Type} {f : α → Except ε β} {g : α → β} {l : List α} (h : ∀ a ∈ l, f a = .ok (g a)) :
    l.mapM f = .ok (l.map g) := by
  induction l with
  | nil => rfl
  | cons a l ih =>
    rw [List.mapM_cons, h a List.mem_cons_self, ih fun a' ha => h a' (List.mem_cons_of_mem _ ha)]
    rfl

/-- They are not when one is not. -/
theorem mapM_eq_error {ε α β : Type} {f : α → Except ε β} {l : List α} {a : α} (ha : a ∈ l) {e : ε} (h : f a = .error e) :
    ∃ e', l.mapM f = .error e' := by
  induction l with
  | nil => nomatch ha
  | cons b l ih =>
    rw [List.mapM_cons]
    cases hb : f b with
    | error e' => exact ⟨e', rfl⟩
    | ok c =>
      rcases List.mem_cons.mp ha with rfl | ha
      · rw [h] at hb
        nomatch hb
      · obtain ⟨e', hl⟩ := ih ha
        rw [hl]
        exact ⟨e', rfl⟩

/-- The search of the store finds the sessions with a live host, when each of them has attributes. -/
theorem searchSessions_ok {t : Tables} {userId typeId : Nat} (h : ∀ g ∈ candidates t userId typeId, g.attributes ≠ none) :
    Storage.searchSessions typeId (some userId) t =
      .ok (((candidates t userId typeId).map (searched t userId)).filter (·.hasLiveHost)) := by
  have hread : ∀ g ∈ candidates t userId typeId, Tables.decodeSession g (searched t userId g).participants = .ok (searched t userId g) := by
    intro g hg
    obtain ⟨text, htext⟩ := Option.ne_none_iff_exists'.mp (h g hg)
    simp only [Tables.decodeSession, htext, searched, Option.getD_some]
  unfold Storage.searchSessions
  exact bind_eq_ok.mpr ⟨_, mapM_eq_ok hread, rfl⟩

/-- It fails when one of them has none. -/
theorem searchSessions_error {t : Tables} {userId typeId : Nat} {g : GameSessionRow} (hg : g ∈ candidates t userId typeId)
    (h : g.attributes = none) : ∃ e, Storage.searchSessions typeId (some userId) t = .error e := by
  have hread : Tables.decodeSession g (searched t userId g).participants = .error .unexpectedNull := by
    simp only [Tables.decodeSession, h]
  obtain ⟨e, he⟩ := mapM_eq_error hg (f := fun g => Tables.decodeSession g (searched t userId g).participants) hread
  refine ⟨e, ?_⟩
  change ((candidates t userId typeId).mapM (fun g => Tables.decodeSession g (searched t userId g).participants) >>= _) = _
  rw [he]
  rfl

/-- A user is read with its name. -/
theorem participant_eq {t : Tables} {v : Nat} (h : t.HasUser v) (urls : Nat → List Text) :
    ∃ name, t.participant urls v = some { userId := v, name, stationUrls := urls v } := by
  obtain ⟨user, huser, hid⟩ := List.mem_map.mp h
  obtain ⟨found, hfound⟩ := Option.isSome_iff_exists.mp (List.find?_isSome.mpr ⟨user, huser, decide_eq_true hid⟩ :
    (t.users.find? (fun u => decide (u.id = v))).isSome)
  exact ⟨found.username, by rw [Tables.participant, Tables.usernameOf, hfound]; rfl⟩

/-- The host of a session is read with its endpoints when it takes part in the session. -/
theorem hasLiveHost_searched {db : Database} {userId : Nat} {g : GameSessionRow} (hne : g.creatorId ≠ userId) :
    (searched db.toTables userId g).hasLiveHost = true ↔
      { gameId := g.id, userId := g.creatorId } ∈ db.participants ∧ ∃ r ∈ db.stationUrls, r.userId = g.creatorId := by
  have hurls : ∀ {v : Nat}, db.urlsOf v ≠ [] ↔ ∃ r ∈ db.stationUrls, r.userId = v := by
    intro v
    rw [Tables.urlsOf, ne_eq, List.map_eq_nil_iff, List.filter_eq_nil_iff]
    simp
  rw [Storage.GameSession.hasLiveHost, List.any_eq_true]
  constructor
  · rintro ⟨participant, hmem, hlive⟩
    obtain ⟨huser, hendpoint⟩ := of_decide_eq_true hlive
    obtain ⟨v, hv, hparticipant⟩ := List.mem_filterMap.mp hmem
    obtain ⟨row, hrow, rfl⟩ := List.mem_map.mp hv
    obtain ⟨hrow, hgame⟩ := List.mem_filter.mp hrow
    obtain ⟨name, -, rfl⟩ := Option.map_eq_some_iff.mp hparticipant
    have hself : row.userId = g.creatorId := huser
    have hread : (if some userId = some row.userId then [] else db.urlsOf row.userId) ≠ [] := hendpoint
    rw [hself, if_neg fun h => hne (Option.some.inj h).symm] at hread
    refine ⟨?_, hurls.mp hread⟩
    rw [← hself, ← of_decide_eq_true hgame]
    exact hrow
  · rintro ⟨hhost, hendpoint⟩
    obtain ⟨name, hname⟩ := participant_eq (db.references.participantUser _ hhost) (fun v => if some userId = some v then [] else db.urlsOf v)
    refine ⟨_, List.mem_filterMap.mpr ⟨g.creatorId, ?_, hname⟩, ?_⟩
    · exact List.mem_map.mpr ⟨_, List.mem_filter.mpr ⟨hhost, decide_eq_true rfl⟩, rfl⟩
    · rw [if_neg fun h => hne (Option.some.inj h).symm]
      exact decide_eq_true ⟨rfl, hurls.mpr hendpoint⟩

/-- The results are those of the elements that have one. -/
theorem forall₂_filterMap {α β : Type} {R : α → β → Prop} {f : α → Option β} {l : List α} (h : ∀ a ∈ l, ∃ b, f a = some b ∧ R a b) :
    List.Forall₂ R l (l.filterMap f) := by
  induction l with
  | nil => exact .nil
  | cons a l ih =>
    obtain ⟨b, hb, hr⟩ := h a List.mem_cons_self
    rw [List.filterMap_cons_some hb]
    exact .cons hr (ih fun a' ha => h a' (List.mem_cons_of_mem _ ha))

/-- A session that matches has a result. -/
theorem searchResult_searched {t : Tables} {userId : Nat} {g : GameSessionRow} {text : Text} {properties : List Property}
    (htext : g.attributes = some text) (hread : parseProperties text = some properties) :
    ∃ result, searchResult (searched t userId g) = some result ∧ IsResult g result := by
  have hattributes : parseProperties (searched t userId g).attributes = some properties := by
    rw [searched, htext]
    exact hread
  rw [searchResult, hattributes]
  exact ⟨_, rfl, rfl, rfl, ⟨text, htext, hread⟩⟩

/-- The rows that match are the candidates that the search keeps. -/
theorem matches_iff {db : Database} {userId : UInt32} {query : GameSessionQuery} {g : GameSessionRow}
    (hattributes : ∀ g ∈ candidates db.toTables userId.toNat query.typeId.toNat, g.attributes ≠ none) :
    (g ∈ candidates db.toTables userId.toNat query.typeId.toNat ∧ (searched db.toTables userId.toNat g).hasLiveHost = true ∧
      searchKeeps (requestedAttributes query.parameters) (searched db.toTables userId.toNat g) = true) ↔
      g ∈ db.gameSessions ∧ Matches db.toTables userId query g := by
  rw [searchKeeps_iff]
  constructor
  · rintro ⟨hg, hlive, properties, hread, hmatch⟩
    obtain ⟨text, htext⟩ := Option.ne_none_iff_exists'.mp (hattributes g hg)
    obtain ⟨hrow, htype, hne, hactive⟩ := mem_candidates.mp hg
    obtain ⟨hhost, hendpoint⟩ := (hasLiveHost_searched hne).mp hlive
    rw [searched, htext] at hread
    exact ⟨hrow, hactive, htype, hne, hhost, hendpoint, text, properties, htext, hread, hmatch⟩
  · rintro ⟨hrow, hactive, htype, hne, hhost, hendpoint, text, properties, htext, hread, hmatch⟩
    refine ⟨mem_candidates.mpr ⟨hrow, htype, hne, hactive⟩, (hasLiveHost_searched hne).mpr ⟨hhost, hendpoint⟩, properties, ?_, hmatch⟩
    rw [searched, htext]
    exact hread

/-- A search that is for no invitation goes by the attributes of the sessions that the store finds. -/
theorem searchSessions_eq {c : Caller} {st : CallState} {userId : UInt32} {query : GameSessionQuery} (huser : st.userId = some userId)
    (hquery : invitedSession c.env.unixTime.toNat userId query st.db.toTables = .ok none) {sessions : List Storage.GameSession}
    (h : Storage.searchSessions query.typeId.toNat (some userId.toNat) st.db.toTables = .ok sessions) :
    searchSessions query c st =
      .ok (st, .ok ((sessions.filter (searchKeeps (requestedAttributes query.parameters))).filterMap searchResult)) :=
  (loginRequired_bind huser _).trans ((stored_bind hquery _).trans (stored_bind h _))

/-- It fails when the store does. -/
theorem searchSessions_eq_error {c : Caller} {st : CallState} {userId : UInt32} {query : GameSessionQuery}
    (huser : st.userId = some userId) (hquery : invitedSession c.env.unixTime.toNat userId query st.db.toTables = .ok none)
    {e : StorageError} (h : Storage.searchSessions query.typeId.toNat (some userId.toNat) st.db.toTables = .error e) :
    searchSessions query c st = .ok (st, .error .internalError) :=
  (loginRequired_bind huser _).trans ((stored_bind hquery _).trans (stored_bind_error h _))

end Matchmaking

open Matchmaking

/-- The server starts, and a user with an endpoint hosts a room. -/
def roomCalls : List Call :=
  [⟨1000, .invalidateSessions⟩, ⟨1001, .registerUrls 1002 ["prudp:/address=10.66.0.2;port=13000".toList]⟩,
    ⟨1002, .createGameSession 1002 1 "113 => 0;103 => 0".toList⟩]

/-- The room. -/
def room : GameSessionRow := { id := 2, typeId := 1, attributes := some "113 => 0;103 => 0".toList, creatorId := 1002 }

/-- A query that asks for no attribute. -/
def anyRoom : GameSessionQuery := { typeId := 1, queryId := 1, parameters := [] }

/-- The user 1001 searches after some calls of the store. -/
def searcher (calls : List Call) : CallState := { outsider with db := run (Storage.step Host.noHash) migrated calls }

/-- The creator of the session of the migrations, which has no attributes, splits it off. -/
def splitCalls : List Call := roomCalls ++ [⟨1003, .restoreAbandonedGameSessionForSplit 1000 1 1⟩]

/-- The session of the migrations. -/
def unnamed : GameSessionRow := { id := 1, typeId := 1, attributes := none, creatorId := 1000 }

end Scbl.Services.GameSessionExService
