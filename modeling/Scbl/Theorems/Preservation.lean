import Scbl.Lemmas.Cleanup
import Scbl.Theorems.Host

/-!
# Preserving and sweeping later

A secure session that closes while the API has seen its user is preserved, and the sweep cleans up after the user once the API has
not seen it for a while. This leaves what a cleanup at once would have left exactly when the sweep finds the user, by an endpoint or a
session it takes part in, and nobody else; a user whose party or whose sessions are all that is left is not found.
-/

namespace Scbl.Storage

open Scbl.Lib

/-- What the API can tell of a session: its creator, and whether it is destroyed. -/
def GameSessionRow.host (g : GameSessionRow) : Nat × Nat × Bool := (g.id, g.creatorId, g.destroyedAt.isSome)

namespace Tables

/-- Two outcomes are the same: the same rows, and the same users online, creators and destroyed sessions. -/
structure SameOutcome (t t' : Tables) : Prop where
  parties : t.parties = t'.parties
  partyMembers : t.partyMembers = t'.partyMembers
  participants : t.participants = t'.participants
  stationUrls : t.stationUrls = t'.stationUrls
  userSessions : t.userSessions = t'.userSessions
  online : t.users.map (fun u => (u.id, u.isOnline)) = t'.users.map (fun u => (u.id, u.isOnline))
  gameSessions : t.gameSessions.map (·.host) = t'.gameSessions.map (·.host)

/-- A user takes part in a session. -/
def takesPart (t : Tables) (userId : Nat) : Bool := t.participants.any (·.userId = userId)

/-- A user leads no party, is in none, and is the creator of no active session. -/
structure Unattached (t : Tables) (userId : Nat) : Prop where
  leader : ∀ party ∈ t.parties, party.leaderId ≠ userId
  member : ∀ m ∈ t.partyMembers, m.userId ≠ userId
  creator : ∀ g ∈ t.gameSessions, g.destroyedAt = none → g.creatorId ≠ userId

end Tables

namespace Preservation

open Tables Cleanup

variable {t : Tables} {db : Database} {now t₁ t₂ t₃ : Time} {userId v : Nat}

theorem hasEndpoint_iff : t.hasEndpoint v = true ↔ ∃ r ∈ t.stationUrls, r.userId = v := by
  simp only [hasEndpoint, List.any_eq_true, decide_eq_true_eq]

theorem takesPart_iff : t.takesPart v = true ↔ ∃ p ∈ t.participants, p.userId = v := by
  simp only [takesPart, List.any_eq_true, decide_eq_true_eq]

/-! ## Whom the sweep finds -/

theorem mem_staleUsers :
    v ∈ t.staleUsers now ↔ (∃ u ∈ t.users, u.id = v ∧ u.isOnline = false ∧ u.lastApiSeenAt.all (fun seen => seen + 15 < now) = true) ∧
      (t.hasEndpoint v = true ∨ t.takesPart v = true) := by
  simp only [staleUsers, List.mem_map, List.mem_filter, Bool.and_eq_true, Bool.or_eq_true, Bool.not_eq_true']
  constructor
  · rintro ⟨u, ⟨hu, ⟨hoff, hseen⟩, hrows⟩, rfl⟩
    exact ⟨⟨u, hu, rfl, hoff, hseen⟩, hrows⟩
  · rintro ⟨⟨u, hu, rfl, hoff, hseen⟩, hrows⟩
    exact ⟨u, ⟨hu, ⟨hoff, hseen⟩, hrows⟩, rfl⟩

/-- Closing the session of a user does not make another one stale. -/
theorem mem_staleUsers_closed_other (h : v ≠ userId) : v ∈ (t.closed userId).staleUsers now ↔ v ∈ t.staleUsers now := by
  rw [mem_staleUsers, mem_staleUsers]
  refine and_congr_left fun _ => ?_
  constructor
  · rintro ⟨u', hu', hid, hrow⟩
    obtain ⟨u, hu, rfl⟩ := List.mem_map.mp hu'
    by_cases hself : u.id = userId
    · rw [if_pos (decide_eq_true hself)] at hid
      exact absurd (hid.symm.trans hself) h
    · rw [if_neg (by simpa using hself)] at hid hrow
      exact ⟨u, hu, hid, hrow⟩
  · rintro ⟨u, hu, hid, hrow⟩
    refine ⟨u, List.mem_map.mpr ⟨u, hu, if_neg ?_⟩, hid, hrow⟩
    simpa [hid] using h

/-- A user whose session was closed is found by its endpoint or a session it takes part in, once the API has not seen it. -/
theorem mem_staleUsers_closed_self (huser : t.HasUser userId) (hstale : t.recentApi now userId = false) :
    userId ∈ (t.closed userId).staleUsers now ↔ t.hasEndpoint userId = true ∨ t.takesPart userId = true := by
  rw [mem_staleUsers]
  refine and_iff_right ?_
  obtain ⟨u, hu, hid⟩ := List.mem_map.mp huser
  refine ⟨{ u with isOnline := false }, List.mem_map.mpr ⟨u, hu, if_pos (decide_eq_true hid)⟩, hid, rfl, ?_⟩
  have hrow := List.any_eq_false.mp hstale u hu
  cases hseen : u.lastApiSeenAt with
  | none => rfl
  | some seen =>
    rw [hseen] at hrow
    simp only [hid, Option.any_some, decide_eq_true_eq, true_and, not_le] at hrow
    exact decide_eq_true hrow

/-- Nobody is found twice. -/
theorem nodup_staleUsers_closed (db : Database) (userId : Nat) (now : Time) : ((db.closed userId).staleUsers now).Nodup := by
  have hids : (db.closed userId).users.map (·.id) = db.users.map (·.id) := map_updateUsers (f := ({ · with isOnline := false })) (fun _ => rfl) (·.id)
  refine List.Nodup.sublist (List.filter_sublist.map _) ?_
  rw [hids]
  exact db.keys.users

/-- Nobody else is stale before the session is closed exactly when nobody else is afterwards. -/
theorem alone_closed_iff : (∀ v ∈ (t.closed userId).staleUsers now, v = userId) ↔ ∀ v ∈ t.staleUsers now, v = userId := by
  constructor
  · intro h v hv
    by_contra hne
    exact hne (h v ((mem_staleUsers_closed_other hne).mpr hv))
  · intro h v hv
    by_contra hne
    exact hne (h v ((mem_staleUsers_closed_other hne).mp hv))

/-- Where nobody else is stale, the sweep finds the user or nobody. -/
theorem staleUsers_closed_alone (halone : ∀ v ∈ (db.closed userId).staleUsers now, v = userId) :
    (db.closed userId).staleUsers now = if userId ∈ (db.closed userId).staleUsers now then [userId] else [] := by
  have hsubset : (db.closed userId).staleUsers now ⊆ [userId] := fun v hv => List.mem_singleton.mpr (halone v hv)
  rcases List.subperm_singleton_iff.mp ((nodup_staleUsers_closed db userId now).subperm hsubset) with hnil | hone
  · rw [hnil, if_neg List.not_mem_nil]
  · rw [hone, if_pos List.mem_cons_self]

/-! ## The two outcomes -/

/-- What the sweep leaves after the session was preserved. -/
theorem swept_tables (hfresh : db.recentApi t₁ userId = true) :
    (cleanupStaleApiSessions t₂ (closeSecureSession t₁ userId db).1).1.toTables =
      ((db.closed userId).staleUsers t₂).foldl (fun t v => t.cleanedUp t₂ v) (db.closed userId) := by
  rw [cleanupStaleApiSessions_tables, closeSecureSession_fresh hfresh]

/-- Cleaning up at another time leaves the same. -/
theorem sameOutcome_cleanedUp (t : Tables) (now now' : Time) (userId : Nat) :
    (t.cleanedUp now userId).SameOutcome (t.cleanedUp now' userId) := by
  refine ⟨rfl, rfl, rfl, rfl, rfl, rfl, ?_⟩
  have hsame : ∀ g : GameSessionRow, SameSession g g := fun g => ⟨rfl, rfl, rfl, Iff.rfl⟩
  simp only [cleanedUp, reconcileAll, List.map_map]
  refine List.map_congr_left fun g _ => ?_
  have h := (hsame g).reconciledAll now now' (t.withoutUser userId).participantIds (t.affectedSessions userId)
  have hactive := h.active
  rw [← Option.not_isSome_iff_eq_none, ← Option.not_isSome_iff_eq_none, not_iff_not, Bool.coe_iff_coe] at hactive
  simp only [Function.comp_apply, GameSessionRow.host, h.id, h.creatorId, hactive]

/-- A user found by the sweep has lost its endpoint and its sessions, which the cleanup of another user leaves. -/
theorem eq_of_sameOutcome (hsame : (((db.closed userId).staleUsers t₂).foldl (fun t v => t.cleanedUp t₂ v) (db.closed userId)).SameOutcome
    ((db.closed userId).cleanedUp t₃ userId)) (hv : v ∈ (db.closed userId).staleUsers t₂) : v = userId := by
  by_contra hne
  rcases (mem_staleUsers.mp hv).2 with hend | hpart
  · obtain ⟨r, hr, rfl⟩ := hasEndpoint_iff.mp hend
    have hkept : r ∈ ((db.closed userId).cleanedUp t₃ userId).stationUrls := mem_stationUrls_cleanedUp.mpr ⟨hr, hne⟩
    rw [← hsame.stationUrls] at hkept
    exact ((mem_foldl_cleanedUp (fun _ _ _ => mem_stationUrls_cleanedUp) _ _ r).mp hkept).2 hv
  · obtain ⟨p, hp, rfl⟩ := takesPart_iff.mp hpart
    have hkept : p ∈ ((db.closed userId).cleanedUp t₃ userId).participants := mem_participants_cleanedUp.mpr ⟨hp, hne⟩
    rw [← hsame.participants] at hkept
    exact ((mem_foldl_cleanedUp (fun _ _ _ => mem_participants_cleanedUp) _ _ p).mp hkept).2 hv

/-- Where a cleanup changes nothing that shows, the user was not attached to anything. -/
theorem unattached_of_sameOutcome (hsame : (t.closed userId).SameOutcome ((t.closed userId).cleanedUp now userId)) :
    t.Unattached userId := by
  refine ⟨fun party hparty => ?_, fun m hm => ?_, fun g hg hactive hcreator => ?_⟩
  · have hkept : party ∈ (t.closed userId).parties := hparty
    rw [hsame.parties] at hkept
    exact leaderId_cleanedUp hkept
  · have hkept : m ∈ (t.closed userId).partyMembers := hm
    rw [hsame.partyMembers] at hkept
    exact member_cleanedUp hkept
  · have hkept : g.host ∈ (t.closed userId).gameSessions.map (·.host) := List.mem_map.mpr ⟨g, hg, rfl⟩
    rw [hsame.gameSessions] at hkept
    obtain ⟨g', hg', hhost⟩ := List.mem_map.mp hkept
    obtain ⟨-, hcreator', hdestroyed⟩ : g'.id = g.id ∧ g'.creatorId = g.creatorId ∧ g'.destroyedAt.isSome = g.destroyedAt.isSome := by
      simpa only [GameSessionRow.host, Prod.mk.injEq] using hhost
    rw [hactive, Option.isSome_none, Option.isSome_eq_false_iff, Option.isNone_iff_eq_none] at hdestroyed
    exact creatorId_cleanedUp hg' hdestroyed (hcreator'.trans hcreator)

/-- A user without endpoint who takes part in nothing and is not attached to anything is gone once its session is closed. -/
theorem absent_closed (hend : t.hasEndpoint userId = false) (hpart : t.takesPart userId = false) (h : t.Unattached userId) :
    (t.closed userId).Absent userId where
  leader := h.leader
  member := h.member
  participant p hp hid := by
    have htakes := takesPart_iff.mpr ⟨p, hp, hid⟩
    nomatch hpart.symm.trans htakes
  stationUrl r hr hid := by
    have hhas := hasEndpoint_iff.mpr ⟨r, hr, hid⟩
    nomatch hend.symm.trans hhas
  userSession r hr := by simpa using (List.mem_filter.mp hr).2
  online u' hu' hid := by
    obtain ⟨u, -, rfl⟩ := List.mem_map.mp hu'
    split at hid
    · rename_i hself
      rw [if_pos hself]
    · rename_i hself
      exact absurd (decide_eq_true hid) hself
  creator := h.creator

end Preservation

open Preservation Cleanup

/-- Closing the secure session of a user while the API has seen it and sweeping once it has not leaves what closing it then would have
left, exactly when nobody else is stale and the user has an endpoint or takes part in a session or is not attached to anything. -/
theorem preserved_swept_iff {db : Database} {t₁ t₂ t₃ : Time} {userId : Nat} (hfresh : db.recentApi t₁ userId = true)
    (hstale : db.recentApi t₂ userId = false) (hstale' : db.recentApi t₃ userId = false) :
    (cleanupStaleApiSessions t₂ (closeSecureSession t₁ userId db).1).1.SameOutcome (closeSecureSession t₃ userId db).1.toTables ↔
      (∀ v ∈ db.staleUsers t₂, v = userId) ∧
        (db.hasEndpoint userId = true ∨ db.takesPart userId = true ∨ db.Unattached userId) := by
  have huser : db.HasUser userId := by
    obtain ⟨u, hu, hrow⟩ := List.any_eq_true.mp hfresh
    exact List.mem_map.mpr ⟨u, hu, (of_decide_eq_true hrow).1⟩
  have hfound := mem_staleUsers_closed_self huser hstale
  rw [swept_tables hfresh, closeSecureSession_stale hstale', ← alone_closed_iff]
  constructor
  · intro hsame
    have halone : ∀ v ∈ (db.closed userId).staleUsers t₂, v = userId := fun v hv => eq_of_sameOutcome hsame hv
    refine ⟨halone, ?_⟩
    rw [staleUsers_closed_alone halone] at hsame
    by_cases hmem : userId ∈ (db.closed userId).staleUsers t₂
    · exact (hfound.mp hmem).imp_right Or.inl
    · rw [if_neg hmem, List.foldl_nil] at hsame
      exact Or.inr (Or.inr (unattached_of_sameOutcome hsame))
  · rintro ⟨halone, hcond⟩
    rw [staleUsers_closed_alone halone]
    by_cases hmem : userId ∈ (db.closed userId).staleUsers t₂
    · rw [if_pos hmem]
      exact sameOutcome_cleanedUp _ t₂ t₃ userId
    · have hnot := fun h => hmem (hfound.mpr h)
      have hend : db.hasEndpoint userId = false := Bool.eq_false_iff.mpr fun h => hnot (Or.inl h)
      have hpart : db.takesPart userId = false := Bool.eq_false_iff.mpr fun h => hnot (Or.inr h)
      have hunattached : db.Unattached userId := by
        rcases hcond with h | h | h
        · exact absurd (Or.inl h) hnot
        · exact absurd (Or.inr h) hnot
        · exact h
      rw [if_neg hmem, List.foldl_nil, cleanedUp_of_absent (absent_closed hend hpart hunattached)]
      exact ⟨rfl, rfl, rfl, rfl, rfl, rfl, rfl⟩

namespace Preservation

/-- Player 1001 opens a lobby and invites player 1002, who joins its party, opens a room, and leaves the lobby and then the room. -/
def partingCalls : List Call :=
  [⟨1000, .cleanupStaleApiSessions⟩, ⟨1000, .createUserSession 1001 [1]⟩, ⟨1000, .createUserSession 1002 [2]⟩,
    ⟨1001, .registerUrls 1001 ["prudp:/address=10.66.0.2".toList]⟩, ⟨1002, .createGameSession 1001 1 "113 => 1".toList⟩,
    ⟨1003, .addInvite 1001 1002 2 1 2⟩, ⟨1004, .acceptInvite 1002 1⟩, ⟨1005, .joinGameSessionUnbounded 1002 1 2⟩,
    ⟨1006, .createGameSession 1002 1 "113 => 0".toList⟩, ⟨1007, .leaveGameSession 1002 1 2⟩, ⟨1008, .leaveGameSession 1002 1 3⟩,
    ⟨1009, .touchApiPresence 1002⟩]

/-- Player 1001 opens a lobby from an endpoint. -/
def hostingCalls : List Call :=
  [⟨1000, .cleanupStaleApiSessions⟩, ⟨1000, .createUserSession 1001 [1]⟩,
    ⟨1001, .registerUrls 1001 ["prudp:/address=10.66.0.2".toList]⟩, ⟨1002, .createGameSession 1001 1 "113 => 1".toList⟩,
    ⟨1003, .touchApiPresence 1001⟩]

end Preservation

/-- The lobby of a player whose session was preserved is swept as it would have been cleaned up. -/
theorem preserved_swept_host :
    let db := run (step Host.noHash) migrated hostingCalls
    (cleanupStaleApiSessions 1100 (closeSecureSession 1010 1001 db).1).1.SameOutcome (closeSecureSession 1100 1001 db).1.toTables :=
  (preserved_swept_iff (by decide +kernel) (by decide +kernel) (by decide +kernel)).mpr
    ⟨by decide +kernel, Or.inl (by decide +kernel)⟩

/-- A player who left its sessions one after the other stays in the party when its session is preserved and swept. -/
theorem preserved_swept_false :
    ¬∀ (argon2 : Argon2) (calls : List Call) (t₁ t₂ t₃ : Time) (userId : Nat),
      let db := run (step argon2) migrated calls
      db.recentApi t₁ userId = true → db.recentApi t₂ userId = false → db.recentApi t₃ userId = false →
        (cleanupStaleApiSessions t₂ (closeSecureSession t₁ userId db).1).1.SameOutcome (closeSecureSession t₃ userId db).1.toTables := by
  intro h
  have hsame := h Host.noHash partingCalls 1010 1100 1100 1002 (by decide +kernel) (by decide +kernel) (by decide +kernel)
  exact absurd hsame.partyMembers (by decide +kernel)

end Scbl.Storage
