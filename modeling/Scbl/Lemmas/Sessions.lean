import Scbl.Lemmas.Statements
import Scbl.Storage.Run

/-!
# Sessions and their hosts

An active session has a host when its creator is one of its participants. Between the statements of an operation some sessions may
have lost theirs: `HostedExcept` lists them by their keys. Reconciling a session never fails, changes that session only
(`reconciled`), and takes its key off the list.
-/

namespace Scbl.Storage

open Scbl.Lib

/-- Ordering loses and adds no id. -/
theorem mem_orderIds {ids : List Nat} {n : Nat} : n ∈ orderIds ids ↔ n ∈ ids := List.mem_insertionSort _

namespace Tables

/-- The creator of every active session is one of its participants. -/
def Hosted (t : Tables) : Prop :=
  ∀ g ∈ t.gameSessions, g.destroyedAt = none → { gameId := g.id, userId := g.creatorId } ∈ t.participants

instance (t : Tables) : Decidable t.Hosted := inferInstanceAs (Decidable (∀ g ∈ t.gameSessions, _ → _))

/-- The same for the sessions whose type and id are not listed. -/
def HostedExcept (keys : List (Nat × Nat)) (t : Tables) : Prop :=
  ∀ g ∈ t.gameSessions, g.destroyedAt = none → (g.typeId, g.id) ∉ keys →
    { gameId := g.id, userId := g.creatorId } ∈ t.participants

theorem hostedExcept_nil {t : Tables} : t.HostedExcept [] ↔ t.Hosted :=
  ⟨fun h g hg ha => h g hg ha List.not_mem_nil, fun h g hg ha _ => h g hg ha⟩

theorem Hosted.except {t : Tables} (h : t.Hosted) (keys : List (Nat × Nat)) : t.HostedExcept keys :=
  fun g hg ha _ => h g hg ha

/-- Sessions and participants stay as they are. -/
structure SameSessions (t t' : Tables) : Prop where
  gameSessions : t'.gameSessions = t.gameSessions
  participants : t'.participants = t.participants

theorem HostedExcept.same {t t' : Tables} {keys : List (Nat × Nat)} (h : t.HostedExcept keys) (hs : t.SameSessions t') :
    t'.HostedExcept keys := by
  unfold HostedExcept
  rw [hs.gameSessions, hs.participants]
  exact h

/-- The rows that were there stay. -/
theorem subset_insertParticipant (t : Tables) (gameId userId : Nat) :
    t.participants ⊆ (t.insertParticipant gameId userId).participants := by
  unfold Tables.insertParticipant
  split
  · exact List.Subset.refl _
  · exact List.subset_append_left _ _

/-- The inserted row is there. -/
theorem mem_insertParticipant (t : Tables) (gameId userId : Nat) :
    { gameId, userId } ∈ (t.insertParticipant gameId userId).participants := by
  unfold Tables.insertParticipant
  split
  · assumption
  · exact List.mem_append_right _ List.mem_cons_self

/-- The participants after one was inserted. -/
theorem mem_insertParticipant_iff {t : Tables} {gameId userId : Nat} {p : ParticipantRow} :
    p ∈ (t.insertParticipant gameId userId).participants ↔ p ∈ t.participants ∨ p = { gameId, userId } := by
  unfold Tables.insertParticipant
  split
  · rename_i hin
    exact ⟨.inl, fun h => h.elim id fun he => he ▸ hin⟩
  · rw [List.mem_append, List.mem_singleton]

/-- Inserting a participant leaves the sessions alone. -/
theorem gameSessions_insertParticipant (t : Tables) (gameId userId : Nat) :
    (t.insertParticipant gameId userId).gameSessions = t.gameSessions := by
  unfold Tables.insertParticipant
  split <;> rfl

/-- Inserting a participant touches no invitation. -/
theorem invites_insertParticipant (t : Tables) (gameId userId : Nat) : (t.insertParticipant gameId userId).invites = t.invites := by
  unfold Tables.insertParticipant
  split <;> rfl

/-- Inserting a participant touches no party. -/
theorem parties_insertParticipant (t : Tables) (gameId userId : Nat) : (t.insertParticipant gameId userId).parties = t.parties := by
  unfold Tables.insertParticipant
  split <;> rfl

/-- Inserting a participant touches no user. -/
theorem users_insertParticipant (t : Tables) (gameId userId : Nat) : (t.insertParticipant gameId userId).users = t.users := by
  unfold Tables.insertParticipant
  split <;> rfl

/-- An added participant does no harm. -/
theorem HostedExcept.insertParticipant {t : Tables} {keys : List (Nat × Nat)} (h : t.HostedExcept keys) (gameId userId : Nat) :
    (t.insertParticipant gameId userId).HostedExcept keys := by
  intro g hg ha hk
  rw [gameSessions_insertParticipant] at hg
  exact subset_insertParticipant t gameId userId (h g hg ha hk)

/-- An update keeps the hosts when the sessions it changes have theirs afterwards. -/
theorem hostedExcept_updateGameSessions {t : Tables} {keys : List (Nat × Nat)} {p : GameSessionRow → Bool}
    {f : GameSessionRow → GameSessionRow}
    (hkeep : ∀ g ∈ t.gameSessions, p g = false → g.destroyedAt = none → (g.typeId, g.id) ∉ keys →
      { gameId := g.id, userId := g.creatorId } ∈ t.participants)
    (hnew : ∀ g ∈ t.gameSessions, p g = true → (f g).destroyedAt = none → ((f g).typeId, (f g).id) ∉ keys →
      { gameId := (f g).id, userId := (f g).creatorId } ∈ t.participants) :
    (t.updateGameSessions p f).HostedExcept keys := by
  intro g' hg' ha hk
  obtain ⟨g, hg, rfl⟩ := List.mem_map.mp hg'
  cases hp : p g with
  | true =>
    rw [hp, if_pos rfl] at ha hk
    rw [if_pos rfl]
    exact hnew g hg hp ha hk
  | false =>
    rw [hp, if_neg Bool.false_ne_true] at ha hk
    rw [if_neg Bool.false_ne_true]
    exact hkeep g hg hp ha hk

theorem mem_participantIds {t : Tables} {gameId userId : Nat} :
    userId ∈ t.participantIds gameId ↔ { gameId, userId } ∈ t.participants := by
  unfold participantIds
  rw [mem_orderIds, List.mem_map]
  constructor
  · rintro ⟨p, hp, rfl⟩
    obtain ⟨hp, hg⟩ := List.mem_filter.mp hp
    rw [← of_decide_eq_true hg]
    exact hp
  · exact fun h => ⟨_, List.mem_filter.mpr ⟨h, decide_eq_true rfl⟩, rfl⟩

/-- The active session found has the type and the id asked for. -/
theorem activeSession_eq_some {t : Tables} {typeId sessionId : Nat} {session : GameSessionRow}
    (h : t.activeSession typeId sessionId = some session) :
    session ∈ t.gameSessions ∧ session.id = sessionId ∧ session.typeId = typeId ∧ session.destroyedAt = none :=
  ⟨List.mem_of_find?_eq_some h, by simpa using List.find?_some h⟩

/-- There is no active session with the type and the id. -/
theorem activeSession_eq_none {t : Tables} {typeId sessionId : Nat} (h : t.activeSession typeId sessionId = none)
    {g : GameSessionRow} (hg : g ∈ t.gameSessions) (ha : g.destroyedAt = none) : (g.typeId, g.id) ≠ (typeId, sessionId) := by
  intro he
  cases he
  have := List.find?_eq_none.mp h g hg
  simp [ha] at this

end Tables

/-- Two sessions with one id are one. -/
theorem Database.session_unique (db : Database) {g g' : GameSessionRow} (hg : g ∈ db.gameSessions) (hg' : g' ∈ db.gameSessions)
    (h : g.id = g'.id) : g = g' :=
  List.inj_on_of_nodup_map db.keys.gameSessions hg hg' h

/-- The active session with the type and the id of an active session is that session. -/
theorem Database.activeSession_self (db : Database) {g : GameSessionRow} (hg : g ∈ db.gameSessions)
    (ha : g.destroyedAt = none) : db.activeSession g.typeId g.id = some g := by
  cases h : db.activeSession g.typeId g.id with
  | none => exact absurd rfl (Tables.activeSession_eq_none h hg ha)
  | some g' =>
    obtain ⟨hg', hid, _, _⟩ := Tables.activeSession_eq_some h
    rw [db.session_unique hg' hg hid]

/-! ## Reconciling -/

/-- A session after it was reconciled with its participants. -/
def GameSessionRow.reconciled (g : GameSessionRow) (now : Time) (typeId sessionId : Nat) (participants : List Nat) : GameSessionRow :=
  if g.id = sessionId ∧ g.typeId = typeId ∧ g.destroyedAt = none then
    match participants with
    | [] => { g with destroyedAt := some now }
    | newCreatorId :: _ => if g.creatorId ∈ participants then g else { g with creatorId := newCreatorId }
  else g

namespace GameSessionRow

/-- Reconciling changes a session exactly when its creator is no longer a participant. -/
theorem reconciled_eq_self {g : GameSessionRow} {now : Time} {typeId sessionId : Nat} {participants : List Nat} :
    g.reconciled now typeId sessionId participants = g ↔
      (g.id = sessionId → g.typeId = typeId → g.destroyedAt = none → g.creatorId ∈ participants) := by
  unfold GameSessionRow.reconciled
  split
  · rename_i hkey
    obtain ⟨hid, htype, hactive⟩ := hkey
    cases participants with
    | nil =>
      simp only [List.not_mem_nil]
      refine iff_of_false (fun he => ?_) (fun h => h hid htype hactive)
      have hd := congrArg (·.destroyedAt) he
      simp [hactive] at hd
    | cons newCreatorId rest =>
      simp only []
      split
      · rename_i hin
        exact iff_of_true rfl fun _ _ _ => hin
      · rename_i hout
        refine iff_of_false (fun he => hout ?_) (fun h => hout (h hid htype hactive))
        rw [← congrArg (·.creatorId) he]
        exact List.mem_cons_self
  · rename_i hkey
    exact iff_of_true rfl fun hid htype hactive => absurd ⟨hid, htype, hactive⟩ hkey

/-- Reconciling a session leaves it under its key. -/
theorem reconciled_key (g : GameSessionRow) (now : Time) (typeId sessionId : Nat) (participants : List Nat) :
    ((g.reconciled now typeId sessionId participants).typeId, (g.reconciled now typeId sessionId participants).id) =
      (g.typeId, g.id) := by
  unfold GameSessionRow.reconciled
  split
  · cases participants with
    | nil => rfl
    | cons newCreatorId rest =>
      simp only []
      split <;> rfl
  · rfl

theorem reconciled_id (g : GameSessionRow) (now : Time) (typeId sessionId : Nat) (participants : List Nat) :
    (g.reconciled now typeId sessionId participants).id = g.id :=
  (Prod.mk.inj (g.reconciled_key now typeId sessionId participants)).2

/-- A session that is active after it was reconciled was active before: its creator is one of the participants, or it is another
session and stays as it was. -/
theorem reconciled_active {g : GameSessionRow} {now : Time} {typeId sessionId : Nat} {participants : List Nat}
    (h : (g.reconciled now typeId sessionId participants).destroyedAt = none) :
    g.destroyedAt = none ∧
      ((g.typeId, g.id) = (typeId, sessionId) ∧ (g.reconciled now typeId sessionId participants).creatorId ∈ participants ∨
        (g.typeId, g.id) ≠ (typeId, sessionId) ∧ g.reconciled now typeId sessionId participants = g) := by
  unfold GameSessionRow.reconciled at h ⊢
  by_cases hkey : g.id = sessionId ∧ g.typeId = typeId ∧ g.destroyedAt = none
  · rw [if_pos hkey] at h ⊢
    obtain ⟨rfl, rfl, hactive⟩ := hkey
    refine ⟨hactive, Or.inl ⟨rfl, ?_⟩⟩
    cases participants with
    | nil => nomatch h
    | cons newCreatorId rest =>
      simp only []
      split
      · rename_i hin
        exact hin
      · exact List.mem_cons_self
  · rw [if_neg hkey] at h ⊢
    refine ⟨h, Or.inr ⟨fun he => hkey ?_, rfl⟩⟩
    obtain ⟨htype, hid⟩ := Prod.mk.inj he
    exact ⟨hid, htype, h⟩

end GameSessionRow

section Wp

variable {ρ : Type} {db : Database} {keys : List (Nat × Nat)}

/-- Reconciling a session always succeeds, and changes that session only. -/
theorem wp_reconcileGameSession (now : Time) (typeId sessionId : Nat) :
    wp (reconcileGameSession now typeId sessionId : StorageTx ρ _)
      (fun _ db' => db'.toTables = { db.toTables with
        gameSessions := db.gameSessions.map (·.reconciled now typeId sessionId (db.participantIds sessionId)) })
      (fun _ => False) db := by
  have hsame : ∀ participants : List Nat, (∀ g ∈ db.gameSessions, g.id = sessionId → g.typeId = typeId → g.destroyedAt = none →
      g.creatorId ∈ participants) → db.toTables = { db.toTables with
        gameSessions := db.gameSessions.map (·.reconciled now typeId sessionId participants) } := by
    intro participants h
    have hrows : db.gameSessions.map (·.reconciled now typeId sessionId participants) = db.gameSessions :=
      (List.map_congr_left fun g hg => GameSessionRow.reconciled_eq_self.mpr (h g hg)).trans (List.map_id _)
    rw [hrows]
  unfold reconcileGameSession
  rw [wp_bind, wp_query]
  cases hs : db.activeSession typeId sessionId with
  | none =>
    refine hsame _ fun g hg hid htype hactive => ?_
    exact absurd (by rw [hid, htype]) (Tables.activeSession_eq_none hs hg hactive)
  | some session =>
    obtain ⟨hmem, rfl, rfl, hactive⟩ := Tables.activeSession_eq_some hs
    simp only [wp_bind, wp_query]
    cases hp : db.participantIds session.id with
    | nil =>
      rw [wp_bind]
      refine wp_statement_ok (db.integrity.updateGameSessions _ (fun _ => rfl) fun g hg _ => db.references.creator g hg)
        fun db' h => ?_
      have hrows : (db.updateGameSessions (fun g => g.id = session.id ∧ g.typeId = session.typeId ∧ g.destroyedAt = none)
          ({ · with destroyedAt := some now })).gameSessions =
          db.gameSessions.map (·.reconciled now session.typeId session.id []) := by
        refine List.map_congr_left fun g _ => ?_
        simp only [GameSessionRow.reconciled, decide_eq_true_eq]
      rw [wp_pure, h, ← hrows]
      rfl
    | cons newCreatorId rest =>
      simp only []
      split
      · rename_i hin
        refine hsame _ fun g hg hid _ _ => ?_
        rw [db.session_unique hg hmem hid]
        exact hin
      · rename_i hout
        rw [wp_bind]
        have huser : db.HasUser newCreatorId :=
          db.references.participantUser _ (Tables.mem_participantIds.mp (hp ▸ List.mem_cons_self))
        refine wp_statement_ok (db.integrity.updateGameSessions _ (fun _ => rfl) fun _ _ _ => huser) fun db' h => ?_
        have hrows : (db.updateGameSessions (fun g => g.id = session.id ∧ g.typeId = session.typeId ∧ g.destroyedAt = none)
            ({ · with creatorId := newCreatorId })).gameSessions =
            db.gameSessions.map (·.reconciled now session.typeId session.id (newCreatorId :: rest)) := by
          refine List.map_congr_left fun g hg => ?_
          simp only [GameSessionRow.reconciled, decide_eq_true_eq]
          split
          · rename_i hkey
            rw [db.session_unique hg hmem hkey.1, if_neg hout]
          · rfl
        rw [wp_pure, h, ← hrows]
        rfl

/-- Reconciling a session takes it off the list. -/
theorem wp_reconcileGameSession_hosted (now : Time) {typeId sessionId : Nat} (h : db.HostedExcept ((typeId, sessionId) :: keys)) :
    wp (reconcileGameSession now typeId sessionId : StorageTx ρ _) (fun _ db' => db'.HostedExcept keys) (fun _ => True) db := by
  refine wp_weaken (wp_reconcileGameSession now typeId sessionId) (fun _ db' h' => ?_) (fun _ hf => hf.elim)
  rw [h']
  intro g' hg' hactive hk
  obtain ⟨g, hg, rfl⟩ := List.mem_map.mp hg'
  rcases GameSessionRow.reconciled_active hactive with ⟨hactive', ⟨hkey, hin⟩ | ⟨hkey, hsame⟩⟩
  · rw [g.reconciled_id, (Prod.mk.inj hkey).2]
    exact Tables.mem_participantIds.mp hin
  · rw [hsame] at hk ⊢
    exact h g hg hactive' fun hm => (List.mem_cons.mp hm).elim hkey hk

end Wp

end Scbl.Storage
