import Scbl.Services.Invitations
import Scbl.Storage.Attributes
import Mathlib.Tactic.Common

/-!
# The class of a game session

Attribute 113 of a game session says whether it is a lobby (1) or a game room (0), and four readers take it from the stored text: the
store's scan of the entries, the parser behind the kind of an invitation, and the two text searches of the trigger on `participants`.
The scan takes the first entry of id 113, the parser the first of them that is 0 or 1, and a search takes any: on the attributes of a
request they agree exactly when every entry that names a class is the first entry of id 113.
-/

namespace Scbl.Services.Api

open Scbl.Lib Scbl.Storage Scbl.Services.GameSessionService

/-- What a reader takes a session for. -/
@[ext]
structure SessionClass where
  lobby : Bool
  gameRoom : Bool
  deriving DecidableEq, Repr

/-- The class by the entries of the attributes. -/
def scannedClass (attributes : Text) : SessionClass :=
  { lobby := isLobbySessionAttributes attributes, gameRoom := isGameRoomAttributes attributes }

/-- The class by the kind of an invitation into the session. -/
def invitedClass (session : Storage.GameSession) : SessionClass :=
  { lobby := sessionInviteKind session = some INVITE_KIND_LOBBY_PARTY
    gameRoom := sessionInviteKind session = some INVITE_KIND_PRIVATE_ROOM }

/-- The class by the text searches of the trigger. -/
def searchedClass (attributes : Text) : SessionClass :=
  { lobby := likeLobby (some attributes), gameRoom := likeGameRoom (some attributes) }

/-- The readers classify a session identically, and none takes it for both a lobby and a game room. -/
structure ReadersAgree (session : Storage.GameSession) : Prop where
  invited : invitedClass session = scannedClass session.attributes
  searched : searchedClass session.attributes = scannedClass session.attributes
  exclusive : ∀ c ∈ [scannedClass session.attributes, invitedClass session, searchedClass session.attributes],
    ¬ (c.lobby = true ∧ c.gameRoom = true)

/-- Each property that names a class is the first one of id 113. -/
def FirstNamesClass (attributes : List Property) : Prop :=
  ∀ property ∈ attributes, property.id = 113 → property.value = 0 ∨ property.value = 1 →
    attributes.find? (fun property => property.id = 113) = some property

namespace ClassAux

/-- The characters of a number in decimal are digits. -/
theorem isDigit_of_mem_decimal {n : UInt32} {c : Char} (h : c ∈ decimal n) : c.isDigit = true :=
  Nat.isDigit_of_mem_toDigits (by decide) (by decide) h

/-- A character that is no digit does not stand in a number. -/
theorem not_mem_decimal (n : UInt32) {c : Char} (hc : c.isDigit = false) : c ∉ decimal n := by
  intro hmem
  rw [isDigit_of_mem_decimal hmem] at hc
  nomatch hc

/-- A digit is no white space. -/
theorem isWhiteSpace_of_mem_decimal {n : UInt32} {c : Char} (h : c ∈ decimal n) : isWhiteSpace c = false := by
  have hdigit := isDigit_of_mem_decimal h
  simp only [Char.isDigit, Bool.and_eq_true, decide_eq_true_eq, ge_iff_le, UInt32.le_iff_toNat_le] at hdigit
  have hlow : 48 ≤ c.toNat := hdigit.1
  have hhigh : c.toNat ≤ 57 := hdigit.2
  simp only [isWhiteSpace, decide_eq_false_iff_not]
  omega

/-- A number is read back from its decimal form. -/
theorem parseU32_decimal (n : UInt32) : parseU32 (decimal n) = some n.toNat := by
  rw [decimal, parseU32_toDigits, if_pos n.toNat_lt]

/-- Numbers with the same decimal form are the same. -/
theorem decimal_inj {n m : UInt32} : decimal n = decimal m ↔ n = m := by
  constructor
  · intro h
    have hread : some n.toNat = some m.toNat := by rw [← parseU32_decimal, h, parseU32_decimal]
    exact UInt32.toNat_inj.1 (Option.some.inj hread)
  · rintro rfl
    rfl

/-- The text of a property. -/
def entryText (property : Property) : Text := decimal property.id ++ " => ".toList ++ decimal property.value

/-- No semicolon stands in the text of a property. -/
theorem not_mem_entryText (property : Property) : ';' ∉ entryText property := by
  simp [entryText, not_mem_decimal]

/-- The text of some attributes is joined from the texts of the properties. -/
theorem attributesText_eq (attributes : List Property) : attributesText attributes = joinWith ';' (attributes.map entryText) := rfl

/-- The entries of the text of some attributes. -/
theorem splitOn_attributesText {attributes : List Property} (hne : attributes ≠ []) :
    (attributesText attributes).splitOn ';' = attributes.map entryText := by
  refine splitOn_joinWith (by simpa using hne) ?_
  intro t hmem
  obtain ⟨property, -, rfl⟩ := List.mem_map.1 hmem
  exact not_mem_entryText property

/-! ### The scan -/

/-- The text of a property is split before and after its arrow. -/
theorem splitOnce_entryText (property : Property) :
    splitOnce "=>".toList (entryText property) = some (decimal property.id ++ [' '], ' ' :: decimal property.value) := by
  have hsep : '=' ∉ decimal property.id ++ [' '] := by simp [not_mem_decimal]
  have h := splitOnce_append ['>'] (' ' :: decimal property.value) hsep
  simpa [entryText] using h

/-- The space before the arrow is trimmed. -/
theorem trim_decimal_space (n : UInt32) : trim (decimal n ++ [' ']) = decimal n :=
  trim_append (w := []) (by simp) (by simp [isWhiteSpace]) (fun c hc => isWhiteSpace_of_mem_decimal hc)

/-- What the scan reads of the text of a property. -/
theorem scan_entryText (property : Property) (attributeId : Nat) :
    (do
      let (rawId, rawValue) ← splitOnce "=>".toList (entryText property)
      let id ← parseU32 (trim rawId)
      if id ≠ attributeId then none else parseU32 (trim rawValue)) =
      if property.id.toNat = attributeId then some property.value.toNat else none := by
  have hvalue : trim (' ' :: decimal property.value) = decimal property.value := by
    have h := trim_append (w := [' ']) (v := []) (by simp [isWhiteSpace]) (by simp)
      (fun c (hc : c ∈ decimal property.value) => isWhiteSpace_of_mem_decimal hc)
    simpa using h
  rw [splitOnce_entryText]
  simp only [Option.bind_eq_bind, Option.bind_some, trim_decimal_space, hvalue, parseU32_decimal, ne_eq, ite_not]

/-- The scan finds the value of the first property with the id. -/
theorem sessionAttributeValue_attributesText (attributes : List Property) (attributeId : Nat) :
    sessionAttributeValue (attributesText attributes) attributeId =
      (attributes.find? (fun property => property.id.toNat = attributeId)).map (fun property => property.value.toNat) := by
  by_cases hne : attributes = []
  · subst hne
    simp [sessionAttributeValue, attributesText, joinWith, splitOnce]
  · rw [sessionAttributeValue, splitOn_attributesText hne, List.findSome?_map]
    clear hne
    induction attributes with
    | nil => rfl
    | cons property attributes ih =>
      rw [List.findSome?_cons, Function.comp_apply, scan_entryText, List.find?_cons]
      by_cases hid : property.id.toNat = attributeId
      · simp [hid]
      · simpa [hid] using ih

/-! ### The parser -/

/-- A property is read back from its text. -/
theorem fromStr_entryText (property : Property) : Property.fromStr (entryText property) = some property := by
  have hsplit : splitOnce " => ".toList (entryText property) = some (decimal property.id, decimal property.value) := by
    have h := splitOnce_append "=> ".toList (decimal property.value) (not_mem_decimal property.id (c := ' ') (by decide))
    simpa [entryText] using h
  rw [Property.fromStr, hsplit]
  simp only [Option.bind_eq_bind, Option.bind_some, parseU32_decimal, UInt32.ofNat_toNat]
  rfl

/-- Properties are read back from their text, unless there are none. -/
theorem parseProperties_attributesText {attributes : List Property} (hne : attributes ≠ []) :
    parseProperties (attributesText attributes) = some attributes := by
  rw [parseProperties, splitOn_attributesText hne]
  clear hne
  induction attributes with
  | nil => rfl
  | cons property attributes ih =>
    rw [List.map_cons, List.mapM_cons, fromStr_entryText, ih]
    rfl

/-- The first property that names a class. -/
def firstClass (attributes : List Property) : Option Property :=
  attributes.find? (fun property => property.id = 113 ∧ (property.value = 0 ∨ property.value = 1))

/-- The kind of an invitation goes by the first property that names a class. -/
theorem sessionInviteKind_attributesText (session : Storage.GameSession) (attributes : List Property) :
    sessionInviteKind { session with attributes := attributesText attributes } =
      (firstClass attributes).map (fun property =>
        if property.value = 0 then INVITE_KIND_PRIVATE_ROOM else INVITE_KIND_LOBBY_PARTY) := by
  by_cases hne : attributes = []
  · subst hne
    rfl
  · simp only [sessionInviteKind, parseProperties_attributesText hne, Option.bind_eq_bind, Option.bind_some]
    clear hne
    induction attributes with
    | nil => rfl
    | cons property attributes ih =>
      rw [List.findSome?_cons, firstClass, List.find?_cons]
      by_cases hid : property.id = 113
      · by_cases hzero : property.value = 0
        · simp [hid, hzero]
        · by_cases hone : property.value = 1
          · simp [hid, hone]
          · have hskip : property.value.toNat ≠ 0 ∧ property.value.toNat ≠ 1 :=
              ⟨fun h => hzero (UInt32.toNat_inj.1 h), fun h => hone (UInt32.toNat_inj.1 h)⟩
            split
            · rename_i hsome
              split at hsome
              · simp_all
              · simp_all
            · simpa [firstClass, hid, hzero, hone] using ih
      · simpa [firstClass, hid] using ih

/-! ### The searches -/

/-- The text of a property without the spaces. -/
def packedText (id value : UInt32) : Text := decimal id ++ "=>".toList ++ decimal value

/-- The spaces of the text of a property. -/
theorem filter_entryText (property : Property) :
    (entryText property).filter (fun c => c ≠ ' ') = packedText property.id property.value := by
  have hdecimal : ∀ n : UInt32, (decimal n).filter (fun c => c ≠ ' ') = decimal n := by
    intro n
    refine List.filter_eq_self.2 ?_
    intro c hc
    have hne : c ≠ ' ' := fun heq => not_mem_decimal n (c := ' ') (by decide) (heq ▸ hc)
    simpa using hne
  rw [entryText, List.filter_append, List.filter_append, hdecimal, hdecimal]
  rfl

/-- The spaces of the text of some attributes. -/
theorem filter_attributesText (attributes : List Property) :
    (attributesText attributes).filter (fun c => c ≠ ' ') =
      joinWith ';' (attributes.map (fun property => packedText property.id property.value)) := by
  have htail : ∀ attributes : List Property,
      ((attributes.map entryText).flatMap (fun t => ';' :: t)).filter (fun c => c ≠ ' ') =
        (attributes.map (fun property => packedText property.id property.value)).flatMap (fun t => ';' :: t) := by
    intro attributes
    induction attributes with
    | nil => rfl
    | cons property attributes ih =>
      rw [List.map_cons, List.flatMap_cons, List.filter_append, ih, List.filter_cons_of_pos (by decide), filter_entryText]
      rfl
  rw [attributesText_eq]
  cases attributes with
  | nil => rfl
  | cons property attributes =>
    rw [List.map_cons, joinWith, List.filter_append, htail, filter_entryText]
    rfl

/-- The text of a property without the spaces tells the property. -/
theorem packedText_inj {id id' value value' : UInt32} : packedText id value = packedText id' value' ↔ id = id' ∧ value = value' := by
  have hsplit : ∀ id value : UInt32, splitOnce "=>".toList (packedText id value) = some (decimal id, decimal value) := fun id value =>
    splitOnce_append ['>'] (decimal value) (not_mem_decimal id (by decide))
  constructor
  · intro h
    have hread : some (decimal id, decimal value) = some (decimal id', decimal value') := by rw [← hsplit, h, hsplit]
    obtain ⟨hid, hvalue⟩ := Prod.mk.inj (Option.some.inj hread)
    exact ⟨decimal_inj.1 hid, decimal_inj.1 hvalue⟩
  · rintro ⟨rfl, rfl⟩
    rfl

/-- What a search finds in the text of some attributes. -/
theorem likeClass_attributesText (attributes : List Property) (value : UInt32) :
    likeClass (some (attributesText attributes)) (';' :: packedText 113 value ++ [';']) = true ↔
      ∃ property ∈ attributes, property.id = 113 ∧ property.value = value := by
  have hsep : ∀ id value : UInt32, ';' ∉ packedText id value := by
    intro id value
    simp [packedText, not_mem_decimal]
  simp only [likeClass, filter_attributesText]
  cases attributes with
  | nil =>
    simp only [List.not_mem_nil, false_and, exists_false, iff_false, containsText, decide_eq_true_eq]
    intro hin
    have hle := hin.length_le
    have hlen : "=>".toList.length = 2 := rfl
    simp only [packedText, joinWith, List.map_nil, List.length_append, List.length_cons, List.length_nil, hlen] at hle
    omega
  | cons property attributes =>
    rw [List.map_cons, joinWith, ← List.cons_append, ← List.flatMap_cons, ← List.map_cons (f := fun property : Property => packedText property.id property.value),
      containsText_joined (hsep 113 value)]
    · simp only [List.mem_map, packedText_inj]
    · intro t hmem
      obtain ⟨property, -, rfl⟩ := List.mem_map.1 hmem
      exact hsep _ _

/-! ### What the readers look at -/

/-- The first property of id 113. -/
def firstOfId (attributes : List Property) : Option Property := attributes.find? (fun property => property.id = 113)

/-- The first property of id 113 has a value. -/
def FirstHas (attributes : List Property) (value : UInt32) : Prop :=
  ∃ property, firstOfId attributes = some property ∧ property.value = value

/-- The scan goes by the first property of id 113. -/
theorem scanned_iff (attributes : List Property) (value : UInt32) :
    sessionAttributeValue (attributesText attributes) 113 = some value.toNat ↔ FirstHas attributes value := by
  have hid : (fun property : Property => decide (property.id.toNat = 113)) = fun property => decide (property.id = 113) := by
    funext property
    exact decide_eq_decide.2 (UInt32.toNat_inj (b := 113))
  simp only [sessionAttributeValue_attributesText, hid, firstOfId, FirstHas, Option.map_eq_some_iff, UInt32.toNat_inj]

theorem scannedClass_lobby (attributes : List Property) :
    (scannedClass (attributesText attributes)).lobby = true ↔ FirstHas attributes 1 := by
  rw [← scanned_iff, scannedClass, isLobbySessionAttributes, decide_eq_true_iff]
  rfl

theorem scannedClass_gameRoom (attributes : List Property) :
    (scannedClass (attributesText attributes)).gameRoom = true ↔ FirstHas attributes 0 := by
  rw [← scanned_iff, scannedClass, isGameRoomAttributes, decide_eq_true_iff]
  rfl

theorem searchedClass_lobby (attributes : List Property) :
    (searchedClass (attributesText attributes)).lobby = true ↔ ∃ property ∈ attributes, property.id = 113 ∧ property.value = 1 :=
  likeClass_attributesText attributes 1

theorem searchedClass_gameRoom (attributes : List Property) :
    (searchedClass (attributesText attributes)).gameRoom = true ↔
      ∃ property ∈ attributes, property.id = 113 ∧ property.value = 0 :=
  likeClass_attributesText attributes 0

/-- The parser goes by the first property that names a class. -/
theorem invitedClass_iff (session : Storage.GameSession) (attributes : List Property) :
    ((invitedClass { session with attributes := attributesText attributes }).lobby = true ↔
        ∃ property, firstClass attributes = some property ∧ property.value = 1) ∧
      ((invitedClass { session with attributes := attributesText attributes }).gameRoom = true ↔
        ∃ property, firstClass attributes = some property ∧ property.value = 0) := by
  simp only [invitedClass, sessionInviteKind_attributesText, decide_eq_true_eq]
  cases hfirst : firstClass attributes with
  | none => simp
  | some property =>
    have hclass : property.value = 0 ∨ property.value = 1 := by
      have hfound := List.find?_some hfirst
      simp only [decide_eq_true_eq] at hfound
      exact hfound.2
    rcases hclass with hvalue | hvalue
    · simp [hvalue, INVITE_KIND_LOBBY_PARTY, INVITE_KIND_PRIVATE_ROOM]
    · simp [hvalue, INVITE_KIND_LOBBY_PARTY, INVITE_KIND_PRIVATE_ROOM]

/-- The first property that names a class is the first of id 113, if each is. -/
theorem firstClass_iff {attributes : List Property} (h : FirstNamesClass attributes) {value : UInt32}
    (hvalue : value = 0 ∨ value = 1) :
    (∃ property, firstClass attributes = some property ∧ property.value = value) ↔ FirstHas attributes value := by
  have hfirst : ∀ p, firstClass attributes = some p → firstOfId attributes = some p := by
    intro p hp
    have hfound := List.find?_some hp
    simp only [decide_eq_true_eq] at hfound
    exact h p (List.mem_of_find?_eq_some hp) hfound.1 hfound.2
  constructor
  · rintro ⟨property, hclass, heq⟩
    exact ⟨property, hfirst property hclass, heq⟩
  · rintro ⟨property, hof, rfl⟩
    have hid := List.find?_some hof
    simp only [decide_eq_true_eq] at hid
    have hsome : (firstClass attributes).isSome := by
      rw [firstClass, List.find?_isSome]
      exact ⟨property, List.mem_of_find?_eq_some hof, by simp [hid, hvalue]⟩
    obtain ⟨p, hp⟩ := Option.isSome_iff_exists.1 hsome
    have heq : some p = some property := by rw [← hfirst p hp, hof]
    exact ⟨property, hp.trans heq, rfl⟩

/-- A search finds a class where the first property of id 113 names it, if each that names one is the first. -/
theorem searched_iff {attributes : List Property} (h : FirstNamesClass attributes) {value : UInt32} (hvalue : value = 0 ∨ value = 1) :
    (∃ property ∈ attributes, property.id = 113 ∧ property.value = value) ↔ FirstHas attributes value := by
  constructor
  · rintro ⟨property, hmem, hid, rfl⟩
    exact ⟨property, h property hmem hid hvalue, rfl⟩
  · rintro ⟨property, hof, rfl⟩
    have hid := List.find?_some hof
    simp only [decide_eq_true_eq] at hid
    exact ⟨property, List.mem_of_find?_eq_some hof, hid, rfl⟩

/-- The scan takes no session for both. -/
theorem scanned_exclusive (attributes : Text) :
    ¬ ((scannedClass attributes).lobby = true ∧ (scannedClass attributes).gameRoom = true) := by
  simp only [scannedClass, isLobbySessionAttributes, isGameRoomAttributes, decide_eq_true_eq]
  rintro ⟨hlobby, hroom⟩
  rw [hlobby] at hroom
  nomatch hroom

end ClassAux

open ClassAux

/-- The readers agree on the class that the attributes of a request give a session exactly when each property that names a class is
the first one of id 113. -/
theorem readersAgree_iff (session : Storage.GameSession) (attributes : List Property) :
    ReadersAgree { session with attributes := attributesText attributes } ↔ FirstNamesClass attributes := by
  constructor
  · intro h property hmem hid hclass
    have hsearched : FirstHas attributes property.value := by
      rcases hclass with hvalue | hvalue
      · rw [hvalue, ← scannedClass_gameRoom, ← h.searched, searchedClass_gameRoom]
        exact ⟨property, hmem, hid, hvalue⟩
      · rw [hvalue, ← scannedClass_lobby, ← h.searched, searchedClass_lobby]
        exact ⟨property, hmem, hid, hvalue⟩
    obtain ⟨first, hfirst, hvalue⟩ := hsearched
    have hidFirst := List.find?_some hfirst
    simp only [decide_eq_true_eq] at hidFirst
    have heq : first = property := by
      cases first
      cases property
      simp_all
    exact heq ▸ hfirst
  · intro h
    have hinvited : invitedClass { session with attributes := attributesText attributes } =
        scannedClass (attributesText attributes) := by
      obtain ⟨hlobby, hroom⟩ := invitedClass_iff session attributes
      refine SessionClass.ext (Bool.eq_iff_iff.2 ?_) (Bool.eq_iff_iff.2 ?_)
      · rw [hlobby, scannedClass_lobby, firstClass_iff h (Or.inr rfl)]
      · rw [hroom, scannedClass_gameRoom, firstClass_iff h (Or.inl rfl)]
    have hsearched : searchedClass (attributesText attributes) = scannedClass (attributesText attributes) := by
      refine SessionClass.ext (Bool.eq_iff_iff.2 ?_) (Bool.eq_iff_iff.2 ?_)
      · rw [searchedClass_lobby, scannedClass_lobby, searched_iff h (Or.inr rfl)]
      · rw [searchedClass_gameRoom, scannedClass_gameRoom, searched_iff h (Or.inl rfl)]
    refine { invited := hinvited, searched := hsearched, exclusive := ?_ }
    simp only [List.forall_mem_cons, hinvited, hsearched]
    exact ⟨scanned_exclusive _, scanned_exclusive _, scanned_exclusive _, List.forall_mem_nil _⟩

/-- They do not agree on every list: the scan takes this one for a game room, and the trigger finds a lobby as well. -/
theorem readersAgree_false :
    ¬ ∀ (session : Storage.GameSession) (attributes : List Property),
      ReadersAgree { session with attributes := attributesText attributes } := by
  intro h
  have hboth := (h { sessionType := 1, sessionId := 2, creatorId := 1001, attributes := [], participants := [] }
    [{ id := 113, value := 0 }, { id := 113, value := 1 }]).searched
  exact absurd hboth (by decide +kernel)

end Scbl.Services.Api
