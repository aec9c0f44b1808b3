import Scbl.Lemmas.Parties
import Scbl.Theorems.Host

/-!
# Membership by consent

In every state that the operations of the store reach from the migrated tables, a party has its leader among its members, a member
is one of an existing party, and a member other than the leader became one by a join that followed its own acceptance of an
invitation of the leader to that party.
-/

namespace Scbl.Storage

open Scbl.Lib

/-- The calls of a run so far, with the databases before and after each. -/
abbrev History : Type := List (Transition Database Call Unit)

/-- A call is the acceptance of an invitation by the user it is for. -/
structure IsAcceptance (t : Transition Database Call Unit) (i : InviteRow) : Prop where
  call : t.input.op = .acceptInvite i.receiver i.rowid
  accepted : ∃ j ∈ t.after.invites, j.SameTerms i ∧ j.acceptedAt ≠ none

/-- A call is a join of the session an accepted invitation is for, which makes a user a member of a party. -/
structure IsJoin (t : Transition Database Call Unit) (i : InviteRow) (m : PartyMemberRow) : Prop where
  call : t.input.op = .joinGameSessionUnbounded m.userId i.sessionType i.sessionId
  invite : i ∈ t.before.invites
  accepted : i.acceptedAt ≠ none
  before : m ∉ t.before.partyMembers
  after : m ∈ t.after.partyMembers

/-- A user is a member of a party, since a join that followed its acceptance of an invitation of the leader to the party. -/
def Consented (history : History) (leaderId : Nat) (m : PartyMemberRow) : Prop :=
  ∃ i before accept between join after, history = before ++ accept :: (between ++ join :: after) ∧
    i.Admits leaderId m ∧ IsAcceptance accept i ∧ IsJoin join i m ∧ ∀ t ∈ after, m ∈ t.after.partyMembers

namespace Consent

/-- The parties are led, the accepted invitations were accepted by the users they are for, and the members have consented. -/
structure Orderly (history : History) (db : Database) : Prop where
  led : Led db
  accepted : ∀ i ∈ db.invites, i.acceptedAt ≠ none → ∃ accept ∈ history, IsAcceptance accept i
  consented : ∀ party ∈ db.parties, ∀ m ∈ db.partyMembers, m.partyId = party.id → m.userId ≠ party.leaderId →
    Consented history party.leaderId m

/-- An acceptance of one state of an invitation is one of every state. -/
theorem isAcceptance_of_sameTerms {t : Transition Database Call Unit} {i j : InviteRow} (h : IsAcceptance t i) (hs : i.SameTerms j) :
    IsAcceptance t j := by
  obtain ⟨k, hk, hsame, hk'⟩ := h.accepted
  refine ⟨?_, k, hk, hsame.trans hs, hk'⟩
  rw [← hs.receiver, ← hs.rowid]
  exact h.call

/-- A membership that lasts one more call. -/
theorem consented_snoc {history : History} {leaderId : Nat} {m : PartyMemberRow} (h : Consented history leaderId m)
    {t : Transition Database Call Unit} (hm : m ∈ t.after.partyMembers) : Consented (history ++ [t]) leaderId m := by
  obtain ⟨i, before, accept, between, join, after, rfl, hadmits, haccept, hjoin, hafter⟩ := h
  refine ⟨i, before, accept, between, join, after ++ [t], by simp, hadmits, haccept, hjoin, fun t' ht' => ?_⟩
  rcases List.mem_append.mp ht' with ht' | ht'
  · exact hafter t' ht'
  · rw [List.mem_singleton.mp ht']
    exact hm

/-- A call keeps the parties, the acceptances and the consent in order. -/
theorem orderly_step (argon2 : Argon2) {history : History} {db : Database} (h : Orderly history db) (call : Call) :
    Orderly (history ++ [⟨db, call, (step argon2 db call).2, (step argon2 db call).1⟩]) (step argon2 db call).1 := by
  have hadvance := advance_step argon2 h.led call
  refine ⟨hadvance.led, fun i hi ha => ?_, fun party hp m hm he hne => ?_⟩
  · rcases hadvance.accepted i hi ha with ⟨i', hi', ha', hs⟩ | hop
    · obtain ⟨accept, hmem, haccept⟩ := h.accepted i' hi' ha'
      exact ⟨accept, List.mem_append_left _ hmem, isAcceptance_of_sameTerms haccept hs⟩
    · exact ⟨_, List.mem_append_right _ List.mem_cons_self, hop, i, hi, .refl i, ha⟩
  · by_cases hbefore : m ∈ db.partyMembers
    · -- the party the user was a member of is this one, since its id was handed out once
      have hparty : party ∈ db.parties := by
        obtain ⟨party', hp', hid⟩ := List.mem_map.mp (db.references.memberParty m hbefore)
        refine (hadvance.party party hp).elim id fun hlt => absurd (h.led.sequence party' hp') (not_le.mpr ?_)
        rw [hid, he]
        exact hlt
      exact consented_snoc (h.consented party hparty m hbefore he hne) hm
    · rcases hadvance.member party hp m hm he hne with ⟨-, hm'⟩ | ⟨i, hi, ha, hadmits, hop⟩
      · exact absurd hm' hbefore
      · obtain ⟨accept, hmem, haccept⟩ := h.accepted i hi ha
        obtain ⟨past, between, rfl⟩ := List.append_of_mem hmem
        exact ⟨i, past, accept, between, ⟨db, call, (step argon2 db call).2, (step argon2 db call).1⟩, [], by simp, hadmits, haccept,
          ⟨hop, hi, ha, hbefore, hm⟩, fun _ ht => nomatch ht⟩

end Consent

open Consent

end Scbl.Storage
