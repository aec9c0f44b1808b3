import Scbl.Theorems.LobbyRestore
import Scbl.Theorems.Logout

/-!
# Abandoned sessions

A session that its last participant leaves is destroyed, and its creator can have it restored. Of a session that is destroyed otherwise,
by its deletion or at a start of the server, the participants are still stored, and a restoration brings them back. Followed here is one
session through a run: while it is active its creator takes part in it, once it is destroyed nobody does.
-/

namespace Scbl.Storage

open Scbl.Lib

/-- The call destroys a session under its participants, or takes the creator out of it under another type. -/
def StorageOp.Breaks (db : Database) (sessionId : Nat) : StorageOp → Prop
  | .deleteGameSession creatorId typeId id => id = sessionId ∧
    ∃ r ∈ db.gameSessions, LobbyRestore.owned creatorId typeId id r = true ∧ r.attributes ≠ none ∧
      (r.attributes.any isGameRoomAttributes = true → LobbyRestore.remaining db.toTables creatorId id ≠ [] →
        ∀ g, db.HostsLive creatorId typeId id g → g.attributes ≠ none)
  | .deleteGameSessionById id => id = sessionId ∧ ∃ g ∈ db.gameSessions, g.id = id ∧ g.destroyedAt = none
  | .invalidateSessions => ∃ g ∈ db.gameSessions, g.id = sessionId ∧ g.destroyedAt = none
  | .removeParticipants typeId id participants => id = sessionId ∧
    ∃ g ∈ db.gameSessions, g.id = id ∧ g.typeId ≠ typeId ∧ g.destroyedAt = none ∧ g.creatorId ∈ participants
  | _ => False

/-- In the transition the user, who took part in the active session, leaves it with nobody in it, and it is destroyed. -/
structure Abandons (userId typeId sessionId : Nat) (t : Transition Database Call Unit) : Prop where
  active : ∃ g ∈ t.before.gameSessions, g.id = sessionId ∧ g.typeId = typeId ∧ g.destroyedAt = none
  member : { gameId := sessionId, userId } ∈ t.before.participants
  destroyed : ∃ g ∈ t.after.gameSessions, g.id = sessionId ∧ g.typeId = typeId ∧ g.creatorId = userId ∧ g.destroyedAt ≠ none
  empty : ∀ p ∈ t.after.participants, p.gameId ≠ sessionId

/-- The last time the session was destroyed was when the user left it as its last participant. -/
def LastAbandoned (userId typeId sessionId : Nat) (transitions : List (Transition Database Call Unit)) : Prop :=
  ∃ past t later, transitions = past ++ t :: later ∧ Abandons userId typeId sessionId t ∧
    ∀ t' ∈ later, ∃ g ∈ t'.after.gameSessions, g.id = sessionId ∧ g.destroyedAt ≠ none

/-- The session is active and hosted by the user, the only one who takes part in it. -/
structure HostedAlone (userId typeId sessionId : Nat) (t : Tables) : Prop where
  session : ∃ g ∈ t.gameSessions, g.id = sessionId ∧ g.typeId = typeId ∧ g.creatorId = userId ∧ g.destroyedAt = none
  participants : ∀ v, { gameId := sessionId, userId := v } ∈ t.participants ↔ v = userId

namespace Abandoned

open Executions Tables

/-! ## One session -/

section Session

variable {s : Nat} {t t' t'' : Tables} {db db' : Database} {ρ : Type}

/-- While the session is active its creator takes part in it, and once it is destroyed nobody does. -/
structure Settled (s : Nat) (t : Tables) : Prop where
  host : ∀ g ∈ t.gameSessions, g.id = s → g.destroyedAt = none → { gameId := s, userId := g.creatorId } ∈ t.participants
  nobody : ∀ g ∈ t.gameSessions, g.id = s → g.destroyedAt ≠ none → ∀ p ∈ t.participants, p.gameId ≠ s

/-- What becomes of a row of the session. -/
inductive Fate (t : Tables) (g g' : GameSessionRow) : Prop where
  | active (h : g.destroyedAt = none) (h' : g'.destroyedAt = none)
  | destroyed (h : g.destroyedAt ≠ none) (h' : g'.destroyedAt ≠ none) (hc : g.creatorId = g'.creatorId)
  | left (h : g.destroyedAt = none) (h' : g'.destroyedAt ≠ none) (hin : { gameId := g.id, userId := g'.creatorId } ∈ t.participants)

/-- Participants have left the session at most, and whoever is the creator of the session when it is destroyed was one of them. -/
structure Departs (s : Nat) (t t' : Tables) : Prop where
  settled : Settled s t'
  rows : ∀ g' ∈ t'.gameSessions, g'.id = s → ∃ g ∈ t.gameSessions, g.id = s ∧ g.typeId = g'.typeId ∧ Fate t g g'
  participants : t'.participants ⊆ t.participants

/-- The session was not destroyed. -/
structure Opens (s : Nat) (t t' : Tables) : Prop where
  settled : Settled s t'
  rows : ∀ g' ∈ t'.gameSessions, g'.id = s → g'.destroyedAt ≠ none →
    ∃ g ∈ t.gameSessions, g.id = s ∧ g.typeId = g'.typeId ∧ g.creatorId = g'.creatorId ∧ g.destroyedAt ≠ none

/-- A step leaves the session settled, and a destroyed session was destroyed before or was left by its creator. -/
structure Lives (s : Nat) (t t' : Tables) : Prop where
  settled : Settled s t'
  rows : ∀ g' ∈ t'.gameSessions, g'.id = s → g'.destroyedAt ≠ none →
    ∃ g ∈ t.gameSessions, g.id = s ∧ g.typeId = g'.typeId ∧ Fate t g g'

/-- Each row of the session comes from one of the session, and has its creator among the participants or no participants at all. -/
theorem Departs.of_rows (hrow : ∀ g' ∈ t'.gameSessions, g'.id = s → ∃ g ∈ t.gameSessions, g.id = s ∧ g.typeId = g'.typeId ∧ Fate t g g' ∧
      (g'.destroyedAt = none → { gameId := s, userId := g'.creatorId } ∈ t'.participants) ∧
      (g'.destroyedAt ≠ none → ∀ p ∈ t'.participants, p.gameId ≠ s)) (hparticipants : t'.participants ⊆ t.participants) :
    Departs s t t' where
  settled := {
    host := fun g' hg' hid ha => by
      obtain ⟨-, -, -, -, -, hin, -⟩ := hrow g' hg' hid
      exact hin ha
    nobody := fun g' hg' hid hd => by
      obtain ⟨-, -, -, -, -, -, hnone⟩ := hrow g' hg' hid
      exact hnone hd }
  rows g' hg' hid := by
    obtain ⟨g, hg, hgid, ht, hfate, -, -⟩ := hrow g' hg' hid
    exact ⟨g, hg, hgid, ht, hfate⟩
  participants := hparticipants

theorem Departs.lives (h : Departs s t t') : Lives s t t' := ⟨h.settled, fun g' hg' hid _ => h.rows g' hg' hid⟩

theorem Opens.lives (h : Opens s t t') : Lives s t t' where
  settled := h.settled
  rows g' hg' hid hd := by
    obtain ⟨g, hg, hgid, htype, hc, hgd⟩ := h.rows g' hg' hid hd
    exact ⟨g, hg, hgid, htype, .destroyed hgd hd hc⟩

theorem Departs.refl (h : Settled s t) : Departs s t t where
  settled := h
  rows g hg hid := by
    refine ⟨g, hg, hid, rfl, ?_⟩
    by_cases ha : g.destroyedAt = none
    · exact .active ha ha
    · exact .destroyed ha ha rfl
  participants := List.Subset.refl _

theorem Departs.trans (h : Departs s t t') (h' : Departs s t' t'') : Departs s t t'' where
  settled := h'.settled
  rows g'' hg'' hid := by
    obtain ⟨g', hg', hid', htype', hfate'⟩ := h'.rows g'' hg'' hid
    obtain ⟨g, hg, hgid, htype, hfate⟩ := h.rows g' hg' hid'
    refine ⟨g, hg, hgid, htype.trans htype', ?_⟩
    cases hfate' with
    | active ha' ha'' =>
      cases hfate with
      | active ha _ => exact .active ha ha''
      | destroyed _ hd _ => exact absurd ha' hd
      | left _ hd _ => exact absurd ha' hd
    | destroyed hd' hd'' hc' =>
      cases hfate with
      | active _ ha => exact absurd ha hd'
      | destroyed hd _ hc => exact .destroyed hd hd'' (hc.trans hc')
      | left ha _ hin => exact .left ha hd'' (hc' ▸ hin)
    | left ha' hd'' hin' =>
      cases hfate with
      | active ha _ => exact .left ha hd'' (by rw [hgid, ← hid']; exact h.participants hin')
      | destroyed _ hd _ => exact absurd ha' hd
      | left _ hd _ => exact absurd ha' hd
  participants := List.Subset.trans h'.participants h.participants

theorem Opens.refl (h : Settled s t) : Opens s t t := ⟨h, fun g hg hid hd => ⟨g, hg, hid, rfl, rfl, hd⟩⟩

theorem Opens.trans (h : Opens s t t') (h' : Opens s t' t'') : Opens s t t'' where
  settled := h'.settled
  rows g'' hg'' hid hd := by
    obtain ⟨g', hg', hid', htype', hc', hd'⟩ := h'.rows g'' hg'' hid hd
    obtain ⟨g, hg, hgid, htype, hc, hgd⟩ := h.rows g' hg' hid' hd'
    exact ⟨g, hg, hgid, htype.trans htype', hc.trans hc', hgd⟩

/-- The session has the same row and the same participants. -/
structure SameAt (s : Nat) (t t' : Tables) : Prop where
  row : ∀ g, g.id = s → (g ∈ t'.gameSessions ↔ g ∈ t.gameSessions)
  participant : ∀ p, p.gameId = s → (p ∈ t'.participants ↔ p ∈ t.participants)

/-- The same of two databases. -/
def StaysAt (s : Nat) (db db' : Database) : Prop := SameAt s db.toTables db'.toTables

instance (s : Nat) : IsPreorder Database (StaysAt s) where
  refl _ := ⟨fun _ _ => Iff.rfl, fun _ _ => Iff.rfl⟩
  trans _ _ _ h h' := ⟨fun g hg => (h'.row g hg).trans (h.row g hg), fun p hp => (h'.participant p hp).trans (h.participant p hp)⟩

theorem SameAt.of_sameSessions (h : t.SameSessions t') : SameAt s t t' :=
  ⟨fun _ _ => by rw [h.gameSessions], fun _ _ => by rw [h.participants]⟩

theorem SameAt.settled (h : SameAt s t t') (hs : Settled s t) : Settled s t' where
  host g hg hid ha := (h.participant _ rfl).mpr (hs.host g ((h.row g hid).mp hg) hid ha)
  nobody g hg hid hd p hp hgame := hs.nobody g ((h.row g hid).mp hg) hid hd p ((h.participant p hgame).mp hp) hgame

theorem SameAt.opens (h : SameAt s t t') (hs : Settled s t) : Opens s t t' :=
  ⟨h.settled hs, fun g hg hid hd => ⟨g, (h.row g hid).mp hg, hid, rfl, rfl, hd⟩⟩

/-- Statements on other tables do nothing to the session. -/
theorem opens_of_executes (he : Executes SideStatement db db') (hs : Settled s db.toTables) : Opens s db.toTables db'.toTables :=
  (SameAt.of_sameSessions (sameSessions_of_executes he)).opens hs

/-- What follows on other tables. -/
theorem wp_opens_side {start : Tables} {α : Type} {m : StorageTx ρ α} (hm : Moves (Executes SideStatement) m) (h : Opens s start db.toTables) :
    wp m (fun _ db' => Opens s start db'.toTables) (fun _ => True) db :=
  wp_mono (hm db) fun _ _ he => h.trans (opens_of_executes he h.settled)

/-- Rows of the session are updated to rows that are settled. -/
theorem opens_updateGameSessions {p : GameSessionRow → Bool} {f : GameSessionRow → GameSessionRow} (h : Settled s t)
    (hid : ∀ g, (f g).id = g.id) (htype : ∀ g, (f g).typeId = g.typeId)
    (hactive : ∀ g ∈ t.gameSessions, p g = true → g.id = s → (f g).destroyedAt = none →
      { gameId := s, userId := (f g).creatorId } ∈ t.participants)
    (hdestroyed : ∀ g ∈ t.gameSessions, p g = true → g.id = s → (f g).destroyedAt ≠ none →
      g.destroyedAt ≠ none ∧ g.creatorId = (f g).creatorId) : Opens s t (t.updateGameSessions p f) := by
  have hrow : ∀ g' ∈ (t.updateGameSessions p f).gameSessions, g'.id = s → ∃ g ∈ t.gameSessions, g.id = s ∧ g.typeId = g'.typeId ∧
      (g'.destroyedAt = none → { gameId := s, userId := g'.creatorId } ∈ t.participants) ∧
      (g'.destroyedAt ≠ none → g.destroyedAt ≠ none ∧ g.creatorId = g'.creatorId) := by
    intro g' hg' hid'
    obtain ⟨g, hg, rfl⟩ := List.mem_map.mp hg'
    by_cases hp : p g = true
    · rw [if_pos hp] at hid' ⊢
      have hgid : g.id = s := (hid g).symm.trans hid'
      exact ⟨g, hg, hgid, (htype g).symm, hactive g hg hp hgid, hdestroyed g hg hp hgid⟩
    · rw [if_neg hp] at hid' ⊢
      exact ⟨g, hg, hid', rfl, h.host g hg hid', fun hd => ⟨hd, rfl⟩⟩
  refine ⟨⟨fun g' hg' hid' ha => ?_, fun g' hg' hid' hd => ?_⟩, fun g' hg' hid' hd => ?_⟩
  · obtain ⟨g, -, -, -, hin, -⟩ := hrow g' hg' hid'
    exact hin ha
  · obtain ⟨g, hg, hgid, -, -, hgone⟩ := hrow g' hg' hid'
    exact h.nobody g hg hgid (hgone hd).1
  · obtain ⟨g, hg, hgid, ht, -, hgone⟩ := hrow g' hg' hid'
    exact ⟨g, hg, hgid, ht, (hgone hd).2, (hgone hd).1⟩

/-- A participant is added to an active session. -/
theorem opens_insertParticipant {gameId : Nat} (h : Settled s t) (hactive : ∀ g ∈ t.gameSessions, g.id = gameId → g.destroyedAt = none)
    (userId : Nat) : Opens s t (t.insertParticipant gameId userId) := by
  have hsessions := gameSessions_insertParticipant t gameId userId
  refine ⟨⟨fun g hg hid ha => ?_, fun g hg hid hd p hp => ?_⟩, fun g hg hid hd => ⟨g, hsessions ▸ hg, hid, rfl, rfl, hd⟩⟩
  · rw [hsessions] at hg
    exact subset_insertParticipant t gameId userId (h.host g hg hid ha)
  · rw [hsessions] at hg
    rcases mem_insertParticipant_iff.mp hp with hp | rfl
    · exact h.nobody g hg hid hd p hp
    · exact fun he => hd (hactive g hg (hid.trans he.symm))

/-- Participants have left and the session of a key was reconciled. Sessions under other keys have kept their creators. -/
theorem departs_reconciled {now : Time} {typeId sessionId : Nat} (h : Settled s t) (hsessions : t'.gameSessions = t.gameSessions)
    (hparticipants : t'.participants ⊆ t.participants)
    (hkept : ∀ g ∈ t.gameSessions, g.id = s → g.destroyedAt = none → ¬ (s = sessionId ∧ g.typeId = typeId) →
      { gameId := s, userId := g.creatorId } ∈ t'.participants) :
    Departs s t { t' with gameSessions := t'.gameSessions.map (·.reconciled now typeId sessionId (t'.participantIds sessionId)) } := by
  refine .of_rows (fun g' hg' hid' => ?_) hparticipants
  obtain ⟨g, hg, rfl⟩ := List.mem_map.mp hg'
  rw [hsessions] at hg
  have hgid : g.id = s := (g.reconciled_id _ _ _ _).symm.trans hid'
  have htype : g.typeId = (g.reconciled now typeId sessionId (t'.participantIds sessionId)).typeId :=
    (Prod.mk.inj (g.reconciled_key now typeId sessionId (t'.participantIds sessionId))).1.symm
  refine ⟨g, hg, hgid, htype, ?_⟩
  unfold GameSessionRow.reconciled
  by_cases hkey : g.id = sessionId ∧ g.typeId = typeId ∧ g.destroyedAt = none
  · obtain ⟨hs, ht, ha⟩ := hkey
    rw [if_pos ⟨hs, ht, ha⟩]
    cases hids : t'.participantIds sessionId with
    | nil =>
      refine ⟨.left ha nofun (hgid.symm ▸ h.host g hg hgid ha), nofun, fun _ p hp hgame => ?_⟩
      have hin : p.userId ∈ t'.participantIds sessionId := by
        rw [mem_participantIds, ← hs, hgid, ← hgame]
        exact hp
      rw [hids] at hin
      nomatch hin
    | cons newCreatorId rest =>
      have hmember : ∀ v ∈ newCreatorId :: rest, { gameId := s, userId := v } ∈ t'.participants := by
        intro v hv
        rw [← hgid, hs]
        exact mem_participantIds.mp (hids ▸ hv)
      simp only []
      split
      · rename_i hin
        exact ⟨.active ha ha, fun _ => hmember _ hin, fun hd => absurd ha hd⟩
      · exact ⟨.active ha ha, fun _ => hmember _ List.mem_cons_self, fun hd => absurd ha hd⟩
  · rw [if_neg hkey]
    by_cases ha : g.destroyedAt = none
    · refine ⟨.active ha ha, fun _ => hkept g hg hgid ha fun hk => hkey ⟨hgid.trans hk.1, hk.2, ha⟩, fun hd => absurd ha hd⟩
    · exact ⟨.destroyed ha ha rfl, fun ha' => absurd ha' ha, fun _ p hp => h.nobody g hg hgid ha p (hparticipants hp)⟩

/-- A new session has its creator as its participant. -/
theorem opens_insertGameSession (h : Settled s t) (userId typeId : Nat) (attributes : Text) :
    Opens s t ((t.insertGameSession typeId userId attributes).insertParticipant t.nextGameSessionId userId) := by
  have hsessions := gameSessions_insertParticipant (t.insertGameSession typeId userId attributes) t.nextGameSessionId userId
  have hnew : t.nextGameSessionId ∉ t.gameSessions.map (·.id) := maxId_succ_notMem _
  refine ⟨⟨fun g hg hid ha => ?_, fun g hg hid hd p hp => ?_⟩, fun g hg hid hd => ?_⟩
  · rw [hsessions] at hg
    rcases List.mem_append.mp hg with hg | hg
    · exact subset_insertParticipant _ _ _ (h.host g hg hid ha)
    · rw [List.mem_singleton.mp hg] at hid ⊢
      rw [← hid]
      exact mem_insertParticipant _ _ _
  · rw [hsessions] at hg
    rcases List.mem_append.mp hg with hg | hg
    · rcases mem_insertParticipant_iff.mp hp with hp | rfl
      · exact h.nobody g hg hid hd p hp
      · exact fun he => hnew (List.mem_map.mpr ⟨g, hg, hid.trans he.symm⟩)
    · rw [List.mem_singleton.mp hg] at hd
      exact absurd rfl hd
  · rw [hsessions] at hg
    rcases List.mem_append.mp hg with hg | hg
    · exact ⟨g, hg, hid, rfl, rfl, hd⟩
    · rw [List.mem_singleton.mp hg] at hd
      exact absurd rfl hd

/-- Deleting a user deletes its sessions, and takes it out of those of others. -/
theorem opens_deleteUser (h : Settled s db.toTables) (userId : Nat) : Opens s db.toTables (db.deleteUser userId) := by
  refine ⟨⟨fun g hg hid ha => ?_, fun g hg hid hd p hp => ?_⟩, fun g hg hid hd => ⟨g, (List.mem_filter.mp hg).1, hid, rfl, rfl, hd⟩⟩
  · obtain ⟨hg, hne⟩ := List.mem_filter.mp hg
    have hne : g.creatorId ≠ userId := of_decide_eq_true hne
    refine List.mem_filter.mpr ⟨h.host g hg hid ha, ?_⟩
    simp only [Bool.and_eq_true, decide_eq_true_eq, Bool.not_eq_true', List.any_eq_false, beq_iff_eq, not_and]
    refine ⟨hne, fun g' hg' hc hid' => hne ?_⟩
    rw [← db.session_unique hg' hg (hid'.trans hid.symm)]
    exact hc
  · exact h.nobody g (List.mem_filter.mp hg).1 hid hd p (List.mem_filter.mp hp).1

/-- A logout takes a user out of the session, which is reconciled when the user attended it. -/
theorem departs_of_logsOut {now : Time} {userId : Nat} (h : Settled s db.toTables) (hout : db.LogsOut now userId db'.toTables) :
    Departs s db.toTables db'.toTables := by
  have hleft : db'.participants ⊆ db.participants := by
    rw [hout.participants]
    exact List.filter_subset_self _
  refine .of_rows (fun g' hg' hid' => ?_) hleft
  have hids : s ∈ db'.gameSessions.map (·.id) := List.mem_map.mpr ⟨g', hg', hid'⟩
  rw [hout.ids] at hids
  obtain ⟨g, hg, hid⟩ := List.mem_map.mp hids
  refine ⟨g, hg, hid, ?_⟩
  have hsame : ∀ g₁ ∈ db'.gameSessions, g₁.id = s → g' = g₁ := fun g₁ hg₁ h₁ => db'.session_unique hg' hg₁ (hid'.trans h₁.symm)
  by_cases hattends : db.Attends userId g
  · have ha := hattends.1
    by_cases hnobody : ∀ v, { gameId := g.id, userId := v } ∉ db'.participants
    · obtain rfl := hsame _ (hout.destroyed g hg hattends hnobody) hid
      refine ⟨rfl, .left ha nofun (hid.symm ▸ h.host g hg hid ha), nofun, fun _ p hp hgame => hnobody p.userId ?_⟩
      rw [hid, ← hgame]
      exact hp
    · by_cases hhost : { gameId := g.id, userId := g.creatorId } ∈ db'.participants
      · obtain rfl := hsame _ (hout.kept g hg hattends hhost) hid
        exact ⟨rfl, .active ha ha, fun _ => hid ▸ hhost, fun hd => absurd ha hd⟩
      · -- the session goes to the smallest id that remains
        have hexists : ∃ v, { gameId := g.id, userId := v } ∈ db'.participants := by simpa using hnobody
        obtain rfl := hsame _ (hout.handedOver g hg hattends hhost (Nat.find hexists) (Nat.find_spec hexists)
          fun w hw => Nat.find_min' hexists hw) hid
        exact ⟨rfl, .active ha ha, fun _ => hid ▸ Nat.find_spec hexists, fun hd => absurd ha hd⟩
  · obtain rfl := hsame g (hout.others g hg hattends) hid
    by_cases ha : g'.destroyedAt = none
    · refine ⟨rfl, .active ha ha, fun _ => ?_, fun hd => absurd ha hd⟩
      rw [hout.participants]
      exact List.mem_filter.mpr ⟨h.host g' hg hid ha, decide_eq_true fun he => hattends ⟨ha, .inl he⟩⟩
    · exact ⟨rfl, .destroyed ha ha rfl, fun ha' => absurd ha' ha, fun _ p hp => h.nobody g' hg hid ha p (hleft hp)⟩

/-- Reconciling a session whose creator takes part in it changes nothing. -/
theorem stays_reconciled {now : Time} {typeId sessionId : Nat} (h : Settled s db.toTables) :
    wp (do let _ ← reconcileGameSession now typeId sessionId : StorageTx ρ PUnit) (fun _ db' => StaysAt s db db') (fun _ => True) db := by
  rw [wp_bind]
  refine wp_weaken (wp_reconcileGameSession now typeId sessionId) (fun _ db' h' => ?_) fun _ hf => hf.elim
  have hself : ∀ g ∈ db.gameSessions, g.id = s → g.reconciled now typeId sessionId (db.participantIds sessionId) = g := by
    intro g hg hid
    refine GameSessionRow.reconciled_eq_self.mpr fun hid' _ ha => mem_participantIds.mpr ?_
    rw [← hid', hid]
    exact h.host g hg hid ha
  rw [wp_pure, StaysAt, h']
  refine ⟨fun g hid => ⟨fun hg => ?_, fun hg => ?_⟩, fun _ _ => Iff.rfl⟩
  · obtain ⟨g₀, hg₀, rfl⟩ := List.mem_map.mp hg
    rw [hself g₀ hg₀ ((g₀.reconciled_id _ _ _ _).symm.trans hid)]
    exact hg₀
  · exact List.mem_map.mpr ⟨g, hg, hself g hg hid⟩

end Session

/-! ## The restoration -/

/-- A destroyed session of a user with a type and an id. -/
def destroyedBy (userId typeId sessionId : Nat) (g : GameSessionRow) : Bool :=
  g.id = sessionId ∧ g.typeId = typeId ∧ g.creatorId = userId ∧ g.destroyedAt ≠ none

/-- The tables after the restoration of a session. -/
def restored (t : Tables) (userId typeId sessionId : Nat) : Tables :=
  (t.updateGameSessions (destroyedBy userId typeId sessionId) ({ · with creatorId := userId, destroyedAt := none })).insertParticipant
    sessionId userId

/-- A destroyed session of the caller is restored, or nothing happens. -/
theorem restore_cases (userId typeId sessionId : Nat) (db : Database) :
    let after := restoreAbandonedGameSessionForSplit userId typeId sessionId db
    (after.1 = db ∧ after.2 ≠ .ok true) ∨
      (after.2 = .ok true ∧ (∃ g ∈ db.gameSessions, destroyedBy userId typeId sessionId g = true) ∧
        after.1.toTables = restored db.toTables userId typeId sessionId) := by
  refine transaction_of_wp (P := fun r : Database × Except StorageError Bool => (r.1 = db ∧ r.2 ≠ .ok true) ∨
    (r.2 = .ok true ∧ (∃ g ∈ db.gameSessions, destroyedBy userId typeId sessionId g = true) ∧
      r.1.toTables = restored db.toTables userId typeId sessionId)) ?_
  rw [wp_bind, wp_query, wp_bind]
  refine wp_statement_failing (fun _ => .inl ⟨rfl, nofun⟩) fun db₁ h₁ => ?_
  split
  · exact .inl ⟨rfl, nofun⟩
  · rename_i hone
    have hsome : 0 < db.gameSessions.countP (destroyedBy userId typeId sessionId) := by
      rw [show db.gameSessions.countP (destroyedBy userId typeId sessionId) = 1 from Decidable.not_not.mp hone]
      exact Nat.one_pos
    rw [wp_bind]
    refine wp_statement_failing (fun _ => .inl ⟨rfl, nofun⟩) fun db₂ h₂ => ?_
    refine .inr ⟨rfl, List.countP_pos_iff.mp hsome, ?_⟩
    rw [h₂, h₁]
    rfl

/-! ## The operations -/

section Operations

variable {s : Nat} {db : Database} {ρ : Type} (now : Time) (h : Settled s db.toTables)

include h

/-- A transaction whose commit does not destroy the session does not. -/
theorem opens_transaction {m : StorageTx ρ ρ} (hw : wp m (fun _ db' => Opens s db.toTables db'.toTables) (fun _ => True) db) :
    Opens s db.toTables (transaction m db).1.toTables :=
  transaction_inv (I := fun db' : Database => Opens s db.toTables db'.toTables) (.refl h) hw

/-- A transaction that the session's participants only leave. -/
theorem departs_transaction {m : StorageTx ρ ρ} (hw : wp m (fun _ db' => Departs s db.toTables db'.toTables) (fun _ => True) db) :
    Departs s db.toTables (transaction m db).1.toTables :=
  transaction_inv (I := fun db' : Database => Departs s db.toTables db'.toTables) (.refl h) hw

theorem opens_createGameSession (userId typeId : Nat) (attributes : Text) :
    Opens s db.toTables (createGameSession now userId typeId attributes db).1.toTables := by
  refine opens_transaction h ?_
  rw [wp_bind, wp_query, wp_bind]
  refine wp_statement fun db₁ h₁ => ?_
  rw [wp_bind]
  refine wp_statement fun db₂ h₂ => ?_
  have hopens : Opens s db.toTables db₂.toTables := by
    rw [h₂, h₁]
    exact opens_insertGameSession h userId typeId attributes
  rw [wp_bind]
  refine wp_mono (wp_opens_side ?_ hopens) fun _ _ h' => h'
  split
  · exact moves_queuePartyFollowInvites _ _ _ _
  · exact Moves.pure _

omit h in
/-- The session with the id of an active session is active. -/
theorem active_of_activeSession {typeId sessionId : Nat} {session : GameSessionRow}
    (hfound : db.activeSession typeId sessionId = some session) : ∀ g ∈ db.gameSessions, g.id = sessionId → g.destroyedAt = none := by
  intro g hg hid
  obtain ⟨hmem, hid', -, ha⟩ := activeSession_eq_some hfound
  rw [db.session_unique hg hmem (hid.trans hid'.symm)]
  exact ha

theorem opens_joinGameSessionUnbounded (userId typeId sessionId : Nat) :
    Opens s db.toTables (joinGameSessionUnbounded now userId typeId sessionId db).1.toTables := by
  refine opens_transaction h ?_
  rw [wp_bind, wp_query]
  cases hfound : db.activeSession typeId sessionId with
  | none => trivial
  | some session =>
    simp only [wp_bind]
    cases session.attributes with
    | none => trivial
    | some attributes =>
      rw [decodeText, wp_pure, wp_bind]
      refine wp_statement fun db₁ h₁ => ?_
      have hopens : Opens s db.toTables db₁.toTables := by
        rw [h₁]
        exact opens_insertParticipant h (active_of_activeSession hfound) userId
      rw [wp_bind]
      refine wp_mono (wp_opens_side (moves_joinInvitingParty now userId typeId sessionId) hopens) fun _ db₂ h₂ => ?_
      rw [wp_bind]
      refine wp_mono (wp_opens_side (moves_party (.updateInvites (fun _ => _) _ fun _ => ⟨rfl, rfl, rfl⟩)) h₂) fun _ db₃ h₃ => ?_
      rw [wp_bind]
      refine wp_mono (wp_opens_side ?_ h₃) fun _ _ h' => h'
      split
      · exact moves_queuePartyFollowInvites _ _ _ _
      · exact Moves.pure _

theorem opens_migrateGameSessionHost (userId typeId sessionId : Nat) :
    Opens s db.toTables (migrateGameSessionHost userId typeId sessionId db).1.toTables := by
  refine opens_transaction h ?_
  rw [wp_bind, wp_query]
  split
  · rename_i hin
    obtain ⟨-, hin⟩ := Bool.and_eq_true_iff.mp hin
    rw [wp_bind, wp_query, wp_bind]
    refine wp_statement fun db₁ h₁ => ?_
    rw [wp_pure, h₁]
    refine opens_updateGameSessions h (fun _ => rfl) (fun _ => rfl) (fun g _ hg hid _ => ?_) fun g _ hg _ hd => ?_
    · obtain ⟨hid', -, -⟩ := of_decide_eq_true hg
      rw [← hid, hid']
      exact of_decide_eq_true hin
    · exact absurd (of_decide_eq_true hg).2.2 hd
  · trivial

theorem opens_restoreAbandonedGameSessionForSplit (userId typeId sessionId : Nat) :
    Opens s db.toTables (restoreAbandonedGameSessionForSplit userId typeId sessionId db).1.toTables := by
  rcases restore_cases userId typeId sessionId db with ⟨hsame, -⟩ | ⟨-, ⟨g₀, hg₀, hkey⟩, htables⟩
  · rw [hsame]
    exact .refl h
  · rw [htables]
    have hrow : ∀ g' ∈ (restored db.toTables userId typeId sessionId).gameSessions, ∃ g ∈ db.gameSessions,
        (g'.id = sessionId ∧ g'.creatorId = userId ∧ g'.destroyedAt = none) ∨ (g' = g ∧ destroyedBy userId typeId sessionId g = false) := by
      intro g' hg'
      rw [restored, gameSessions_insertParticipant] at hg'
      obtain ⟨g, hg, rfl⟩ := List.mem_map.mp hg'
      refine ⟨g, hg, ?_⟩
      split
      · rename_i hp
        exact .inl ⟨(of_decide_eq_true hp).1, rfl, rfl⟩
      · rename_i hp
        exact .inr ⟨rfl, by simpa using hp⟩
    refine ⟨⟨fun g' hg' hid ha => ?_, fun g' hg' hid hd p hp => ?_⟩, fun g' hg' hid hd => ?_⟩
    · obtain ⟨g, hg, ⟨hid', hc, -⟩ | ⟨rfl, -⟩⟩ := hrow g' hg'
      · rw [← hid, hid', hc]
        exact mem_insertParticipant _ _ _
      · exact subset_insertParticipant _ _ _ (h.host g' hg hid ha)
    · obtain ⟨g, hg, ⟨-, -, ha⟩ | ⟨rfl, hnot⟩⟩ := hrow g' hg'
      · exact absurd ha hd
      · rcases mem_insertParticipant_iff.mp hp with hp | rfl
        · exact h.nobody g' hg hid hd p hp
        · -- had the session been restored, it would be this one
          intro he
          rw [db.session_unique hg hg₀ (hid.trans (he.symm.trans (of_decide_eq_true hkey).1.symm)), hkey] at hnot
          nomatch hnot
    · obtain ⟨g, hg, ⟨-, -, ha⟩ | ⟨rfl, -⟩⟩ := hrow g' hg'
      · exact absurd ha hd
      · exact ⟨g', hg, hid, rfl, rfl, hd⟩

theorem opens_updateGameSession (typeId gameId : Nat) (attributes : Text) :
    Opens s db.toTables (updateGameSession typeId gameId attributes db).1.toTables := by
  refine opens_transaction h (wp_statement fun db₁ h₁ => ?_)
  rw [h₁]
  exact opens_updateGameSessions h (fun _ => rfl) (fun _ => rfl) (fun g hg _ hid ha => h.host g hg hid ha)
    fun _ _ _ _ hd => ⟨hd, rfl⟩

theorem opens_addParticipants (callerId typeId sessionId : Nat) (privateParticipants publicParticipants : List Nat) :
    Opens s db.toTables (addParticipants now callerId typeId sessionId privateParticipants publicParticipants db).1.toTables := by
  refine opens_transaction h ?_
  split
  · exact .refl h
  · rw [wp_bind, wp_query]
    cases hfound : db.activeSession typeId sessionId with
    | none => trivial
    | some session =>
      -- while participants are added the session stays active
      let I : Database → Prop := fun db' => Opens s db.toTables db'.toTables ∧ db'.gameSessions = db.gameSessions
      have hinsert : ∀ {ρ : Type} (userId : Nat) (db' : Database), I db' →
          wp (statement (·.insertParticipant sessionId userId) : StorageTx ρ Unit) (fun _ db'' => I db'') (fun _ => True) db' := by
        rintro ρ userId db' ⟨hopens, hsessions⟩
        refine wp_statement fun db'' h'' => ?_
        have hactive := active_of_activeSession hfound
        rw [← hsessions] at hactive
        constructor
        · rw [h'']
          exact hopens.trans (opens_insertParticipant hopens.settled hactive userId)
        · rw [h'', gameSessions_insertParticipant, hsessions]
      simp only []
      rw [wp_bind]
      refine wp_mono (wp_forM (fun _ (db' : Database) => I db') (fun userId _ db' h' => hinsert userId db' h') ⟨.refl h, rfl⟩) fun _ db₁ h₁ => ?_
      rw [wp_bind]
      refine wp_mono (wp_forM (fun _ (db' : Database) => I db') (fun userId _ db' h' => ?_) h₁) fun _ db₂ h₂ => ?_
      · unfold addPrivateParticipant
        rw [wp_bind, wp_query, wp_bind, wp_query]
        split
        · split
          · exact hinsert userId db' h'
          · exact h'
        · exact hinsert userId db' h'
      · exact wp_mono (stays_reconciled h₂.1.settled) fun _ _ h' => h₂.1.trans (SameAt.opens h' h₂.1.settled)

theorem departs_leaveGameSession (userId typeId sessionId : Nat) :
    Departs s db.toTables (leaveGameSession now userId typeId sessionId db).1.toTables := by
  refine departs_transaction h ?_
  rw [wp_bind]
  refine wp_statement fun db₁ h₁ => ?_
  rw [wp_bind]
  refine wp_weaken (wp_reconcileGameSession now typeId sessionId) (fun _ db₂ h₂ => ?_) fun _ hf => hf.elim
  rw [wp_pure, h₂]
  refine departs_reconciled h ?_ ?_ fun g hg hid ha hkey => ?_
  · rw [h₁, gameSessions_deleteParticipants]
  · rw [h₁, participants_deleteParticipants]
    exact List.filter_subset_self _
  · -- nothing is deleted unless the session has the type given
    rw [h₁, participants_deleteParticipants]
    refine List.mem_filter.mpr ⟨h.host g hg hid ha, ?_⟩
    rw [Bool.not_eq_true', decide_eq_false_iff_not]
    rintro ⟨rfl, -, hsome⟩
    obtain ⟨g', hg'⟩ := Option.isSome_iff_exists.mp hsome
    obtain ⟨hmem, hid', htype, -⟩ := activeSession_eq_some hg'
    rw [db.session_unique hmem hg (hid'.trans hid.symm)] at htype
    exact hkey ⟨rfl, htype⟩

theorem departs_removeParticipants (typeId sessionId : Nat) (participants : List Nat)
    (hb : ¬ (StorageOp.removeParticipants typeId sessionId participants).Breaks db s) :
    Departs s db.toTables (removeParticipants now typeId sessionId participants db).1.toTables := by
  refine departs_transaction h ?_
  rw [wp_bind]
  let I : Database → Prop := fun db' => db'.gameSessions = db.gameSessions ∧ db'.participants ⊆ db.participants ∧
    ∀ p ∈ db.participants, p.gameId ≠ sessionId ∨ p.userId ∉ participants → p ∈ db'.participants
  refine wp_mono (wp_forM (fun rest (db' : Database) => (∀ c ∈ rest, c ∈ participants) ∧ I db') ?_
    ⟨fun c hc => List.mem_dedup.mp hc, rfl, List.Subset.refl _, fun _ hp _ => hp⟩) fun _ db₁ h₁ => ?_
  · rintro c rest db' ⟨hrest, hsessions, hsubset, hkept⟩
    refine wp_statement fun db₁ h₁ => ⟨fun c' hc' => hrest c' (List.mem_cons_of_mem _ hc'), ?_, ?_, fun p hp hp' => ?_⟩
    · rw [h₁, gameSessions_deleteParticipants, hsessions]
    · rw [h₁, participants_deleteParticipants]
      exact List.Subset.trans (List.filter_subset_self _) hsubset
    · rw [h₁, participants_deleteParticipants]
      refine List.mem_filter.mpr ⟨hkept p hp hp', ?_⟩
      rw [Bool.not_eq_true', decide_eq_false_iff_not]
      rintro ⟨hgame, huser⟩
      exact hp'.elim (fun hne => hne hgame) fun hne => hne (huser ▸ hrest c List.mem_cons_self)
  · obtain ⟨-, hsessions, hsubset, hkept⟩ := h₁
    rw [wp_bind]
    refine wp_weaken (wp_reconcileGameSession now typeId sessionId) (fun _ db₂ h₂ => ?_) fun _ hf => hf.elim
    rw [wp_pure, h₂]
    refine departs_reconciled h hsessions hsubset fun g hg hid ha hkey => hkept _ (h.host g hg hid ha) ?_
    by_cases hs : s = sessionId
    · refine .inr fun hc => hb ⟨hs.symm, g, hg, hid.trans hs, fun htype => hkey ⟨hs, htype⟩, ha, hc⟩
    · exact .inl hs

/-- A cleanup takes a user out. -/
theorem wp_departs_cleanup (userId : Nat) : wp (cleanupUserGameState now userId : StorageTx ρ Unit)
    (fun _ db' => Departs s db.toTables db'.toTables) (fun _ => True) db := by
  refine wp_weaken (Cleanup.wp_cleanupUserGameState now userId) (fun _ db' h' => ?_) fun _ hf => hf.elim
  have hout := Logout.logsOut_cleanedUp db now userId
  rw [← h'] at hout
  exact departs_of_logsOut h hout

/-- Statements on other tables make nobody leave. -/
theorem wp_departs_side {α : Type} {m : StorageTx ρ α} (hm : Moves (Executes SideStatement) m) :
    wp m (fun _ db' => Departs s db.toTables db'.toTables) (fun _ => True) db := by
  refine wp_mono (hm db) fun _ db' he => ?_
  have hsame := sameSessions_of_executes he
  have hself := Departs.refl h
  exact ⟨(SameAt.of_sameSessions hsame).settled h, by rw [hsame.gameSessions]; exact hself.rows, by rw [hsame.participants]; exact hself.participants⟩

theorem departs_closeSecureSession (userId : Nat) : Departs s db.toTables (closeSecureSession now userId db).1.toTables := by
  refine departs_transaction h ?_
  rw [wp_bind, wp_query, wp_bind]
  refine wp_mono (wp_departs_side h (moves_statement (.deleteUserSessions _))) fun _ db₁ h₁ => ?_
  rw [wp_bind]
  refine wp_mono (wp_departs_side h₁.settled (moves_statement (.updateUsers _ _))) fun _ db₂ h₂ => ?_
  have hdeparts := h₁.trans h₂
  split
  · exact hdeparts
  · rw [wp_bind]
    exact wp_mono (wp_departs_cleanup now hdeparts.settled userId) fun _ _ h' => hdeparts.trans h'

theorem departs_cleanupStaleApiSessions : Departs s db.toTables (cleanupStaleApiSessions now db).1.toTables := by
  refine departs_transaction h ?_
  rw [wp_bind, wp_query]
  exact wp_forM (fun _ (db' : Database) => Departs s db.toTables db'.toTables)
    (fun userId _ _ h' => wp_mono (wp_departs_cleanup now h'.settled userId) fun _ _ h'' => h'.trans h'') (.refl h)

omit h in
/-- A deletion that is refused, or whose attributes cannot be decoded, changes nothing. -/
theorem deleteGameSession_unbroken {creatorId typeId : Nat} (hb : ¬ (StorageOp.deleteGameSession creatorId typeId s).Breaks db s) :
    (deleteGameSession now creatorId typeId s db).1 = db := by
  have hdecoded : ∀ r, db.OwnRoom creatorId typeId s r → (∀ g, db.HostsLive creatorId typeId s g → g.attributes ≠ none) → False := by
    intro r hr hall
    refine hb ⟨rfl, r, hr.row, decide_eq_true ⟨hr.creator, hr.ofType, hr.id, hr.active⟩, fun hnone => ?_, fun _ _ => hall⟩
    have hroom := hr.room
    rw [hnone] at hroom
    nomatch hroom
  generalize hafter : deleteGameSession now creatorId typeId s db = after
  have houtcome := LobbyRestore.deleteGameSession_outcome now creatorId typeId s db
  rw [hafter] at houtcome
  cases houtcome with
  | notOwned h => rfl
  | undecoded hr ho hattr e => rfl
  | blocked hr hremain hg hattr e => rfl
  | plain hr ho hattr hplain hinvites =>
    refine absurd ⟨rfl, _, hr, ho, hattr, fun hroom hremain => ?_⟩ hb
    rcases hplain with hclass | hnobody
    · rw [hclass] at hroom
      nomatch hroom
    · exact absurd hnobody hremain
  | noLobby hr hall hnone hinvites => exact (hdecoded _ hr hall).elim
  | restored hr hall hg hparty hreached hothers hlength => exact (hdecoded _ hr hall).elim

omit h in
/-- The deletion of another session does nothing to this one. -/
theorem stays_deleteGameSession {sessionId : Nat} (hother : sessionId ≠ s) (creatorId typeId : Nat) :
    StaysAt s db (deleteGameSession now creatorId typeId sessionId db).1 := by
  have hside : ∀ {ρ α : Type} {m : StorageTx ρ α}, Moves (Executes SideStatement) m → Moves (StaysAt s) m :=
    fun hm => hm.mono fun _ _ he => SameAt.of_sameSessions (sameSessions_of_executes he)
  refine Moves.transaction (Moves.bind (Moves.select _) fun found => ?_) db
  cases found with
  | none => exact Moves.rollback _
  | some session =>
    refine Moves.bind (moves_decodeText _) fun attributes => Moves.bind (Moves.select _) fun remaining =>
      Moves.bind (Moves.select _) fun deleted => Moves.bind (moves_statement_of fun db₁ db₂ h₂ => ?_) fun _ => ?_
    · have hrow : ∀ g : GameSessionRow, g.id = s →
          ¬ decide (g.creatorId = creatorId ∧ g.typeId = typeId ∧ g.id = sessionId ∧ g.destroyedAt = none) = true :=
        fun g hid hkey => hother ((of_decide_eq_true hkey).2.2.1.symm.trans hid)
      rw [StaysAt, h₂]
      refine ⟨fun g hid => ⟨fun hg => ?_, fun hg => List.mem_map.mpr ⟨g, hg, if_neg (hrow g hid)⟩⟩, fun _ _ => Iff.rfl⟩
      obtain ⟨g₀, hg₀, rfl⟩ := List.mem_map.mp hg
      split at hid
      · rename_i hkey
        exact absurd (hid.symm.trans (of_decide_eq_true hkey).2.2.1) (Ne.symm hother)
      · rename_i hkey
        rw [if_neg hkey]
        exact hg₀
    · split
      · exact Moves.pure _
      · refine Moves.bind (Moves.select _) fun candidates => ?_
        split
        · exact Moves.abort _
        · split
          · exact Moves.pure _
          · exact Moves.bind (hside (moves_ensurePartyForLeader creatorId)) fun partyId =>
              Moves.bind (hside (Moves.foldlM (moves_queueLobbyRestore now creatorId typeId _ partyId) _ _)) fun _ => Moves.pure _

theorem opens_deleteGameSession (creatorId typeId sessionId : Nat)
    (hb : ¬ (StorageOp.deleteGameSession creatorId typeId sessionId).Breaks db s) :
    Opens s db.toTables (deleteGameSession now creatorId typeId sessionId db).1.toTables := by
  by_cases hs : sessionId = s
  · subst hs
    rw [deleteGameSession_unbroken now hb]
    exact .refl h
  · exact SameAt.opens (stays_deleteGameSession now hs creatorId typeId) h

theorem opens_deleteGameSessionById (sessionId : Nat) (hb : ¬ (StorageOp.deleteGameSessionById sessionId).Breaks db s) :
    Opens s db.toTables (deleteGameSessionById now sessionId db).1.toTables := by
  refine opens_transaction h (wp_statement fun db₁ h₁ => ?_)
  rw [h₁]
  refine opens_updateGameSessions h (fun _ => rfl) (fun _ => rfl) (fun _ _ _ _ ha => nomatch ha) fun g hg hp hid _ => ⟨fun ha => ?_, rfl⟩
  have hid' : g.id = sessionId := of_decide_eq_true hp
  exact hb ⟨hid'.symm.trans hid, g, hg, hid', ha⟩

theorem opens_invalidateSessions (hb : ¬ StorageOp.invalidateSessions.Breaks db s) :
    Opens s db.toTables (invalidateSessions now db).1.toTables := by
  refine opens_transaction h ?_
  rw [wp_bind]
  refine wp_statement fun db₁ h₁ => ?_
  rw [wp_bind]
  refine wp_statement fun db₂ h₂ => ?_
  rw [wp_bind]
  refine wp_statement fun db₃ h₃ => ?_
  rw [wp_bind]
  refine wp_statement fun db₄ h₄ => ?_
  have hsame : SameAt s db.toTables db₄.toTables := by
    rw [h₄, h₃, h₂, h₁]
    exact .of_sameSessions ⟨rfl, rfl⟩
  rw [wp_bind]
  refine wp_statement fun db₅ h₅ => ?_
  refine wp_opens_side (moves_statement (.updateUsers _ _)) ((hsame.opens h).trans ?_)
  rw [h₅]
  refine opens_updateGameSessions (hsame.settled h) (fun _ => rfl) (fun _ => rfl) (fun _ _ _ _ ha => nomatch ha) fun g hg hp hid _ => ?_
  exact absurd ⟨g, (hsame.row g hid).mp hg, hid, of_decide_eq_true hp⟩ hb

end Operations

/-- A call that does not break the session keeps it settled. -/
theorem lives_step (argon2 : Argon2) {s : Nat} {db : Database} {call : Call} (h : Settled s db.toTables) (hb : ¬ call.op.Breaks db s) :
    Lives s db.toTables (step argon2 db call).1.toTables := by
  obtain ⟨now, op⟩ := call
  have hside : ∀ {db' : Database}, Executes SideStatement db db' → Lives s db.toTables db'.toTables :=
    fun he => (opens_of_executes he h).lives
  cases op with
  | loginUser username password => exact hside (executes_loginUser db argon2 username password)
  | touchApiPresence userId => exact hside (executes_touchApiPresence db now userId)
  | registerUser username passwordHash ubiId => exact hside (executes_registerUserUnsafe db username passwordHash ubiId)
  | createUserSession userId key => exact hside (executes_createUserSession db userId key)
  | deleteUser userId =>
    exact (opens_transaction h (wp_statement fun db' h' => by rw [h']; exact opens_deleteUser h userId)).lives
  | registerUrls userId urls => exact hside (executes_registerUrls db userId urls)
  | deleteUserSession userId => exact (departs_transaction h (wp_departs_cleanup now h userId)).lives
  | closeSecureSession userId => exact (departs_closeSecureSession now h userId).lives
  | cleanupStaleApiSessions => exact (departs_cleanupStaleApiSessions now h).lives
  | invalidateSessions => exact (opens_invalidateSessions now h hb).lives
  | createGameSession userId typeId attributes => exact (opens_createGameSession now h userId typeId attributes).lives
  | joinGameSessionUnbounded userId typeId sessionId => exact (opens_joinGameSessionUnbounded now h userId typeId sessionId).lives
  | leaveGameSession userId typeId sessionId => exact (departs_leaveGameSession now h userId typeId sessionId).lives
  | migrateGameSessionHost userId typeId sessionId => exact (opens_migrateGameSessionHost h userId typeId sessionId).lives
  | restoreAbandonedGameSessionForSplit userId typeId sessionId =>
    exact (opens_restoreAbandonedGameSessionForSplit h userId typeId sessionId).lives
  | updateGameSession typeId gameId attributes => exact (opens_updateGameSession h typeId gameId attributes).lives
  | addParticipants callerId typeId sessionId privateParticipants publicParticipants =>
    exact (opens_addParticipants now h callerId typeId sessionId privateParticipants publicParticipants).lives
  | removeParticipants typeId sessionId participants => exact (departs_removeParticipants now h typeId sessionId participants hb).lives
  | deleteGameSession creatorId typeId sessionId => exact (opens_deleteGameSession now h creatorId typeId sessionId hb).lives
  | deleteGameSessionById sessionId => exact (opens_deleteGameSessionById now h sessionId hb).lives
  | addInvite senderId receiverId kind sessionType sessionId =>
    exact hside (executes_addInvite db now senderId receiverId kind sessionType sessionId)
  | takeInvite userId => exact hside (executes_takeInvite db now userId)
  | acceptInvite userId inviteId => exact hside (executes_acceptInvite db now userId inviteId)

/-! ## The history of a session -/

/-- The session is settled, and once it is destroyed its creator was the last to leave it. -/
structure Told (s : Nat) (past : List (Transition Database Call Unit)) (db : Database) : Prop where
  settled : Settled s db.toTables
  left : ∀ g ∈ db.gameSessions, g.id = s → g.destroyedAt ≠ none → LastAbandoned g.creatorId g.typeId s past

/-- A call that does not break the session continues its history. -/
theorem told_step (argon2 : Argon2) {s : Nat} {past : List (Transition Database Call Unit)} {db : Database} {call : Call}
    (h : Told s past db) (hb : ¬ call.op.Breaks db s) :
    Told s (past ++ [⟨db, call, (step argon2 db call).2, (step argon2 db call).1⟩]) (step argon2 db call).1 := by
  have hlives := lives_step argon2 h.settled hb
  refine ⟨hlives.settled, fun g' hg' hid hd => ?_⟩
  obtain ⟨g, hg, hgid, htype, hfate⟩ := hlives.rows g' hg' hid hd
  cases hfate with
  | active _ ha => exact absurd ha hd
  | destroyed hgd _ hc =>
    obtain ⟨before, t, later, rfl, habandons, hlater⟩ := h.left g hg hgid hgd
    rw [hc, htype] at habandons
    refine ⟨before, t, later ++ [⟨db, call, (step argon2 db call).2, (step argon2 db call).1⟩], by simp, habandons, fun t' ht' => ?_⟩
    rcases List.mem_append.mp ht' with ht' | ht'
    · exact hlater t' ht'
    · rw [List.mem_singleton.mp ht']
      exact ⟨g', hg', hid, hd⟩
  | left ha _ hin =>
    refine ⟨past, _, [], rfl, ⟨⟨g, hg, hgid, htype, ha⟩, hgid ▸ hin, ⟨g', hg', hid, rfl, rfl, hd⟩, ?_⟩, fun _ ht' => nomatch ht'⟩
    exact hlives.settled.nobody g' hg' hid hd

end Abandoned

open Abandoned

namespace Abandoned

/-- The user 1000 leaves the lobby it has created. -/
def leavingCalls : List Call := [⟨1000, .createGameSession 1000 7 "113 => 1".toList⟩, ⟨1001, .leaveGameSession 1000 7 2⟩]

/-- The user 1000 deletes the lobby that the user 1001 has joined. -/
def deletingCalls : List Call :=
  [⟨1000, .createGameSession 1000 7 "113 => 1".toList⟩, ⟨1001, .joinGameSessionUnbounded 1001 7 2⟩, ⟨1002, .deleteGameSession 1000 7 2⟩]

end Abandoned

end Scbl.Storage
