import Scbl.Lemmas.Executions
import Scbl.Services.GameSessionEx
import Scbl.Theorems.Classes
import Scbl.Theorems.Isolation

/-!
# Session attributes in the store

The attributes of a request are stored as a text. Read again, the text gives the same properties in the same order, unless there are
none: the empty text is one entry that is no property. The projection for a private invitation changes the text of a list into that
of the list with the class of a lobby.
-/

namespace Scbl.Services.GameSessionExService

open Scbl.Lib Scbl.Rmc Scbl.Prudp Scbl.Storage Scbl.Services.GameSessionService Scbl.Services.Api.ClassAux

/-- The attributes that are stored of a session are read back as those of the request, and no search leaves the session out because
they cannot be read. -/
structure ReadBack (attributes : List Property) (g : GameSessionRow) : Prop where
  read : ∃ text, g.attributes = some text ∧ parseProperties text = some attributes
  listed : ∀ session : Storage.GameSession, g.attributes = some session.attributes → (searchResult session).isSome

/-- The text of some attributes is read back unless there are none. -/
theorem readBack_iff {attributes : List Property} {g : GameSessionRow} (h : g.attributes = some (attributesText attributes)) :
    ReadBack attributes g ↔ attributes ≠ [] := by
  constructor
  · rintro ⟨⟨text, htext, hread⟩, -⟩ rfl
    rw [← Option.some.inj (h.symm.trans htext)] at hread
    exact absurd hread (by decide)
  · intro hne
    refine ⟨⟨_, h, parseProperties_attributesText hne⟩, fun session hsession => ?_⟩
    rw [searchResult, Option.isSome_map, ← Option.some.inj (h.symm.trans hsession), parseProperties_attributesText hne]
    rfl

/-- The members of a party are invited without a change of the sessions. -/
theorem wp_gameSessions_follow {ρ : Type} {E : Abort StorageError ρ → Prop} (he : ∀ e, E (.failed e)) (now : Time)
    (leaderId sessionType sessionId : Nat) (db : Database) :
    wp (queuePartyFollowInvites now leaderId sessionType sessionId : StorageTx ρ Unit)
      (fun _ db' => db'.gameSessions = db.gameSessions) E db := by
  have hinvite : ∀ (partyId receiverId : Nat) (db₁ : Database), db₁.gameSessions = db.gameSessions →
      wp (queuePartyFollowInvite now leaderId sessionType sessionId partyId receiverId : StorageTx ρ Unit)
        (fun _ db' => db'.gameSessions = db.gameSessions) E db₁ := by
    intro partyId receiverId db₁ h₁
    unfold queuePartyFollowInvite
    rw [wp_bind]
    refine wp_statement_failing he fun db₂ h₂ => ?_
    have hkept : db₂.gameSessions = db.gameSessions := by rw [h₂]; exact h₁
    rw [wp_bind, wp_query]
    split
    · exact hkept
    · exact wp_statement_failing he fun db₃ h₃ => by rw [h₃]; exact hkept
  unfold queuePartyFollowInvites
  rw [wp_bind, wp_query]
  cases db.partyOfLeader leaderId with
  | none => rfl
  | some partyId =>
    rw [wp_bind, wp_query]
    split
    · rw [wp_bind, wp_query]
      exact wp_forM (fun _ db' => db'.gameSessions = db.gameSessions) (fun v _ db₁ h₁ => hinvite partyId v db₁ h₁) rfl
    · rfl

/-- A session is created as the last row of the table. -/
theorem gameSessions_createGameSession {now : Time} {userId typeId id : Nat} {attributes : Text} {db : Database}
    (h : (createGameSession now userId typeId attributes db).2 = .ok id) :
    id = db.nextGameSessionId % 2 ^ 32 ∧ (createGameSession now userId typeId attributes db).1.gameSessions =
      db.gameSessions ++ [{ id := db.nextGameSessionId, typeId, attributes := some attributes, creatorId := userId }] := by
  refine transaction_of_wp (P := fun out : Database × Except StorageError Nat => out.2 = .ok id →
    id = db.nextGameSessionId % 2 ^ 32 ∧ out.1.gameSessions =
      db.gameSessions ++ [{ id := db.nextGameSessionId, typeId, attributes := some attributes, creatorId := userId }]) ?_ h
  rw [wp_bind, wp_query, wp_bind]
  refine wp_statement_failing (fun _ h => nomatch h) fun db₁ h₁ => ?_
  rw [wp_bind]
  refine wp_statement_failing (fun _ h => nomatch h) fun db₂ h₂ => ?_
  have hrows : db₂.gameSessions =
      db.gameSessions ++ [{ id := db.nextGameSessionId, typeId, attributes := some attributes, creatorId := userId }] := by
    rw [h₂, Tables.gameSessions_insertParticipant, h₁]
    rfl
  rw [wp_bind]
  have hfollow : ∀ {E : Abort StorageError Nat → Prop}, (∀ e, E (.failed e)) →
      wp (if isGameRoomAttributes attributes then queuePartyFollowInvites now userId typeId (db.nextGameSessionId % 2 ^ 32)
        else pure () : StorageTx Nat Unit) (fun _ db' => db'.gameSessions = db₂.gameSessions) E db₂ := by
    intro E he
    split
    · exact wp_gameSessions_follow he _ _ _ _ _
    · rfl
  refine wp_mono (hfollow fun _ h => nomatch h) fun _ db₃ h₃ => ?_
  rw [wp_pure]
  intro hid
  exact ⟨(Except.ok.inj hid).symm, h₃.trans hrows⟩

/-- An update of the attributes is stored in the rows of the session. -/
theorem gameSessions_updateGameSession {typeId gameId : Nat} {attributes : Text} {db : Database}
    (h : (updateGameSession typeId gameId attributes db).2 = .ok ()) :
    ∀ g ∈ (updateGameSession typeId gameId attributes db).1.gameSessions, g.id = gameId → g.typeId = typeId →
      g.attributes = some attributes := by
  refine transaction_of_wp (P := fun out : Database × Except StorageError Unit => out.2 = .ok () →
    ∀ g ∈ out.1.gameSessions, g.id = gameId → g.typeId = typeId → g.attributes = some attributes) ?_ h
  refine wp_statement_failing (fun _ h => nomatch h) fun db₁ h₁ _ g hg hid htype => ?_
  rw [h₁] at hg
  obtain ⟨g', -, rfl⟩ := List.mem_map.mp hg
  by_cases hmatch : g'.id = gameId ∧ g'.typeId = typeId
  · rw [if_pos (decide_eq_true hmatch)]
  · rw [if_neg (by simpa using hmatch)] at hid htype
    exact absurd ⟨hid, htype⟩ hmatch

/-- The attributes a client sends are read back from the store exactly when there are any. -/
theorem attributes_readBack_iff (c : Caller) (st st' : CallState) :
    (∀ (gameSession : GameSessionService.GameSession) (key : GameSessionKey), createSession gameSession c st = .ok (st', .ok key) →
        ∃ g, st'.db.gameSessions = st.db.gameSessions ++ [g] ∧ UInt32.ofNat g.id = key.sessionId ∧
          g.typeId = gameSession.typeId.toNat ∧ (ReadBack gameSession.attributes g ↔ gameSession.attributes ≠ [])) ∧
    ∀ update : GameSessionUpdate, updateSession update c st = .ok (st', .ok ()) →
      ∀ g ∈ st'.db.gameSessions, g.id = update.sessionKey.sessionId.toNat → g.typeId = update.sessionKey.typeId.toNat →
        (ReadBack update.attributes g ↔ update.attributes ≠ []) := by
  constructor
  · intro gameSession key h
    obtain ⟨userId, -, h⟩ := loginRequired_answers h
    obtain ⟨id, hid, h⟩ := stored_answers h
    obtain ⟨rfl, hkey⟩ := Prod.mk.inj (Except.ok.inj h)
    obtain ⟨hnew, hrows⟩ := gameSessions_createGameSession hid
    refine ⟨_, hrows, ?_, rfl, readBack_iff rfl⟩
    rw [← Except.ok.inj hkey, hnew]
    exact UInt32.ofNat_eq_iff_mod_eq_toNat _ _ |>.mpr (by simp)
  · intro update h g hg hid htype
    obtain ⟨userId, -, h⟩ := loginRequired_answers h
    rw [stored_eq] at h
    obtain ⟨rfl, hresult⟩ := Prod.mk.inj (Except.ok.inj h)
    exact readBack_iff (gameSessions_updateGameSession (ok_of_mapError hresult) g hg hid htype)

/-- A session is created when the store creates it. -/
theorem createSession_eq (gameSession : GameSessionService.GameSession) {c : Caller} {st : CallState} {userId : UInt32} {id : Nat}
    (huser : st.userId = some userId)
    (hid : (createGameSession c.env.unixTime.toNat userId.toNat gameSession.typeId.toNat (attributesText gameSession.attributes) st.db).2 =
      .ok id) :
    ∃ st', createSession gameSession c st = .ok (st', .ok { typeId := gameSession.typeId, sessionId := UInt32.ofNat id }) ∧
      st'.db = (createGameSession c.env.unixTime.toNat userId.toNat gameSession.typeId.toNat
        (attributesText gameSession.attributes) st.db).1 :=
  ⟨_, (loginRequired_bind huser _).trans (stored_bind hid _), rfl⟩

/-- A user creates a session with one attribute, and it is read back. -/
theorem attributes_readBack_lobby :
    ∃ st' g, createSession { typeId := 1, attributes := [{ id := 113, value := 1 }] } caller outsider =
        .ok (st', .ok { typeId := 1, sessionId := 3 }) ∧
      st'.db.gameSessions = outsider.db.gameSessions ++ [g] ∧ ReadBack [{ id := 113, value := 1 }] g := by
  have hid : (createGameSession caller.env.unixTime.toNat (1001 : UInt32).toNat (1 : UInt32).toNat
      (attributesText [{ id := 113, value := 1 }]) outsider.db).2 = .ok 3 := by decide +kernel
  obtain ⟨st', hcall, -⟩ := createSession_eq { typeId := 1, attributes := [{ id := 113, value := 1 }] }
    (show outsider.userId = some 1001 from rfl) hid
  obtain ⟨g, hrows, -, -, hback⟩ := (attributes_readBack_iff _ _ _).1 _ _ hcall
  exact ⟨st', g, hcall, hrows, hback.mpr (by decide)⟩

/-- A user creates a session without attributes: the empty text is stored, which is no list of properties. -/
theorem attributes_readBack_false :
    ∃ st' g, createSession { typeId := 1, attributes := [] } caller outsider = .ok (st', .ok { typeId := 1, sessionId := 3 }) ∧
      g ∈ st'.db.gameSessions ∧ g.id = 3 ∧ g.attributes = some [] ∧ parseProperties [] = none ∧ ¬ ReadBack [] g := by
  have hid : (createGameSession caller.env.unixTime.toNat (1001 : UInt32).toNat (1 : UInt32).toNat (attributesText [])
      outsider.db).2 = .ok 3 := by decide +kernel
  obtain ⟨st', hcall, hdb⟩ := createSession_eq { typeId := 1, attributes := [] }
    (show outsider.userId = some 1001 from rfl) hid
  obtain ⟨hnew, hrows⟩ := gameSessions_createGameSession hid
  refine ⟨st', { id := outsider.db.nextGameSessionId, typeId := 1, attributes := some [], creatorId := 1001 }, hcall, ?_, ?_, rfl,
    by decide, fun hback => absurd rfl ((readBack_iff rfl).mp hback)⟩
  · rw [hdb, hrows]
    exact List.mem_append_right _ List.mem_cons_self
  · decide +kernel

/-! ## The projection for a private invitation -/

/-- A property with the class of a lobby in the place of another class. -/
def lobbyProperty (property : Property) : Property := if property.id = 113 then { property with value := 1 } else property

/-- The properties with the class of a lobby, which is appended when no class is named. -/
def lobbyProperties (attributes : List Property) : List Property :=
  attributes.map lobbyProperty ++ if attributes.any (·.id = 113) then [] else [{ id := 113, value := 1 }]

@[simp] theorem lobbyProperty_id (property : Property) : (lobbyProperty property).id = property.id := by
  unfold lobbyProperty
  split <;> rfl

/-- There is a class among the properties. -/
theorem lobbyProperties_ne_nil (attributes : List Property) : lobbyProperties attributes ≠ [] := by
  cases attributes with
  | nil => decide
  | cons property attributes => exact List.cons_ne_nil _ _

/-- The first property with an id is the first one with that id, unless it is the class. -/
theorem find?_lobbyProperties_of_ne {id : Nat} (hid : id ≠ 113) (attributes : List Property) :
    ((lobbyProperties attributes).find? (fun property => property.id.toNat = id)).map (fun property => property.value.toNat) =
      (attributes.find? (fun property => property.id.toNat = id)).map (fun property => property.value.toNat) := by
  have htail : (if attributes.any (·.id = 113) then [] else [{ id := 113, value := 1 }] : List Property).find?
      (fun property => property.id.toNat = id) = none := by
    split
    · rfl
    · exact List.find?_cons_of_neg (by simpa using Ne.symm hid)
  rw [lobbyProperties, List.find?_append, htail, Option.or_none, List.find?_map, Option.map_map]
  simp only [Function.comp_def, lobbyProperty_id]
  refine Option.map_congr fun property hproperty => ?_
  have hfound : property.id.toNat = id := by simpa using List.find?_some hproperty
  have hne : property.id ≠ 113 := fun h => hid (by rw [← hfound, h]; rfl)
  rw [lobbyProperty, if_neg hne]

/-- The first class among the properties is that of a lobby. -/
theorem find?_lobbyProperties (attributes : List Property) :
    ((lobbyProperties attributes).find? (fun property => property.id.toNat = 113)).map (fun property => property.value.toNat) =
      some 1 := by
  rw [lobbyProperties, List.find?_append, List.find?_map]
  simp only [Function.comp_def, lobbyProperty_id]
  cases hfind : attributes.find? (fun property => decide (property.id.toNat = 113)) with
  | some property =>
    have hnumber : property.id.toNat = 113 := by simpa using List.find?_some hfind
    have hid : property.id = 113 := UInt32.toNat_inj.mp hnumber
    rw [Option.map_some, Option.some_or, Option.map_some, lobbyProperty, if_pos hid]
    rfl
  | none =>
    have hnone : attributes.any (·.id = 113) = false := by
      rw [List.any_eq_false]
      intro property hproperty h
      exact List.find?_eq_none.mp hfind property hproperty (by rw [of_decide_eq_true h]; rfl)
    rw [hnone]
    rfl

/-- A number has a digit. -/
theorem decimal_ne_nil (n : UInt32) : decimal n ≠ [] := Nat.toDigits_ne_nil

/-- The text of a property is not trimmed. -/
theorem trim_entryText (property : Property) : trim (entryText property) = entryText property :=
  trim_eq_self (decimal_ne_nil _) (decimal_ne_nil _) (fun _ hc => isWhiteSpace_of_mem_decimal hc)
    (fun _ hc => isWhiteSpace_of_mem_decimal hc)

/-- The projection of the text of a property. -/
theorem projectEntry_entryText (property : Property) :
    projectEntry (entryText property) = some (entryText (lobbyProperty property), decide (property.id = 113)) := by
  have hne : entryText property ≠ [] := fun h => decimal_ne_nil property.id (List.append_eq_nil_iff.mp (List.append_eq_nil_iff.mp h).1).1
  have hclass : "113".toList = decimal 113 := by decide
  rw [projectEntry, trim_entryText, if_neg hne, splitOnce_entryText]
  dsimp only
  rw [trim_decimal_space, hclass]
  by_cases hid : property.id = 113
  · rw [if_pos (by rw [hid]), lobbyProperty, if_pos hid, decide_eq_true hid]
    rw [entryText, hid]
    decide
  · rw [if_neg fun h => hid (decimal_inj.mp h), lobbyProperty, if_neg hid, decide_eq_false hid]

/-- The projection of the text of some attributes. -/
theorem project_attributesText (attributes : List Property) :
    projectPrivateInviteSessionClassOnly (attributesText attributes) = attributesText (lobbyProperties attributes) := by
  have hprojected : ((attributesText attributes).splitOn ';').filterMap projectEntry =
      attributes.map (fun property => (entryText (lobbyProperty property), decide (property.id = 113))) := by
    by_cases hne : attributes = []
    · subst hne
      decide
    · rw [splitOn_attributesText hne, List.filterMap_map]
      exact List.filterMap_eq_map_iff_forall_eq_some.mpr fun property _ => projectEntry_entryText property
  have hclass : "113 => 1".toList = entryText { id := 113, value := 1 } := by decide
  rw [projectPrivateInviteSessionClassOnly, hprojected, attributesText_eq, lobbyProperties, List.map_map, List.any_map, List.map_append, List.map_map, hclass]
  congr 2
  change (if attributes.any (fun property => decide (property.id = 113)) = true then _ else _) = _
  split <;> rfl

/-- The projection changes the class only: read by the parser it is the list with every class replaced, or with one appended, and the
scan reads the class of a lobby and every other attribute as before. -/
theorem projection_changes_class (attributes : List Property) :
    parseProperties (projectPrivateInviteSessionClassOnly (attributesText attributes)) = some (lobbyProperties attributes) ∧
      ∀ id, sessionAttributeValue (projectPrivateInviteSessionClassOnly (attributesText attributes)) id =
        if id = 113 then some 1 else sessionAttributeValue (attributesText attributes) id := by
  rw [project_attributesText]
  refine ⟨parseProperties_attributesText (lobbyProperties_ne_nil attributes), fun id => ?_⟩
  rw [sessionAttributeValue_attributesText, sessionAttributeValue_attributesText]
  by_cases hid : id = 113
  · rw [if_pos hid, hid, find?_lobbyProperties]
  · rw [if_neg hid, find?_lobbyProperties_of_ne hid]

end Scbl.Services.GameSessionExService
