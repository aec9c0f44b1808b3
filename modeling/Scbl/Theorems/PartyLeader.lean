import Scbl.Hooks.Party

/-!
# The leader of the party

Every event that sets the members of the party names one leader. A promotion makes the members with the given account the leaders, and
takes the flag from the others even where there is none.
-/

namespace Scbl.Hooks

open Scbl.Lib

abbrev PartyTransition := Transition PartyState PartyCall (Option PartyAnswer)

/-- A party with members has one leader. -/
def OneLeader (state : PartyState) : Prop := state.partyMembers ≠ [] → leaders state.partyMembers = 1

/-- A call leaves one leader, and a promotion that is refused leaves the members. -/
def LeadsOn (t : PartyTransition) : Prop :=
  OneLeader t.after ∧
    ∀ accountId overlapped answer, t.input = .promoteToLeader accountId overlapped → t.output = some answer → answer.result = false →
      t.after.partyMembers = t.before.partyMembers

/-- A promotion is of one member. -/
def PromotesOne (state : PartyState) (call : PartyCall) : Prop :=
  ∀ accountId overlapped, call = .promoteToLeader accountId overlapped → state.partyMembers ≠ [] →
    state.partyMembers.countP (·.accountId = accountIdText accountId) = 1

/-- A promotion keeps one leader exactly if it is of one member. -/
theorem leadsOn_promote {localIdentity : Option Identity} {state : PartyState} {accountId : Option Text} {overlapped : Option UplayOverlapped} :
    LeadsOn ⟨state, .promoteToLeader accountId overlapped, (partyStep localIdentity state (.promoteToLeader accountId overlapped)).2,
        (partyStep localIdentity state (.promoteToLeader accountId overlapped)).1⟩ ↔
      PromotesOne state (.promoteToLeader accountId overlapped) := by
  constructor
  · rintro ⟨hone, -⟩ accountId' overlapped' heq hmembers
    cases heq
    have hcount := hone (by simpa [partyStep, promoteToLeader] using hmembers)
    exact (leaders_promoted _ _).symm.trans hcount
  · intro hone
    refine ⟨fun hmembers => ?_, fun accountId' overlapped' answer heq houtput hresult => ?_⟩
    · rw [ne_eq, show ∀ s : PartyState, (partyStep localIdentity s (.promoteToLeader accountId overlapped)).1.partyMembers =
        s.partyMembers.map (promoted (accountIdText accountId)) from fun _ => rfl, List.map_eq_nil_iff] at hmembers
      exact (leaders_promoted _ _).trans (hone accountId overlapped rfl hmembers)
    · cases heq
      cases houtput
      -- a member would have been found
      have hnil : state.partyMembers = [] := by
        by_contra hmembers
        have hcount := hone accountId overlapped rfl hmembers
        rw [List.countP_eq_zero.2 fun member hmember hid => ?_] at hcount
        · nomatch hcount
        · have hany := List.any_eq_false.1 hresult member hmember
          exact hany hid
      simp [partyStep, promoteToLeader, hnil]

/-- A call that is no promotion keeps one leader. -/
theorem leadsOn_of_ne_promote {identity : Identity} {state : PartyState} {call : PartyCall} (h : OneLeader state)
    (hcall : ∀ accountId overlapped, call ≠ .promoteToLeader accountId overlapped) :
    LeadsOn ⟨state, call, (partyStep (some identity) state call).2, (partyStep (some identity) state call).1⟩ := by
  refine ⟨?_, fun accountId overlapped _ heq => absurd heq (hcall accountId overlapped)⟩
  cases call with
  | promoteToLeader accountId overlapped => exact absurd rfl (hcall accountId overlapped)
  | inviteToParty listFriends accountId overlapped =>
    simp only [partyStep, inviteToParty]
    split
    · exact h
    · exact fun _ => leaders_setLocalLeaderParty identity listFriends _
  | friendGameInviteAccepted accountId username => exact fun _ => leaders_setReceiverParty identity accountId username
  | partyGameInviteAccepted kind accountId username =>
    simp only [partyStep, observePartyGameInviteAccepted]
    split
    · exact fun _ => leaders_setReceiverParty identity accountId username
    · exact h

/-- A call in a party with one leader. -/
theorem leadsOn_iff {identity : Identity} {state : PartyState} {call : PartyCall} (h : OneLeader state) :
    LeadsOn ⟨state, call, (partyStep (some identity) state call).2, (partyStep (some identity) state call).1⟩ ↔ PromotesOne state call := by
  cases call with
  | promoteToLeader accountId overlapped => exact leadsOn_promote
  | _ => exact iff_of_true (leadsOn_of_ne_promote h nofun) nofun

/-- Along every run of the calls and events there is one leader, and a refused promotion changes nothing, exactly if each promotion in a
party with members is of one member. -/
theorem one_leader_iff (identity : Identity) (calls : List PartyCall) :
    (∀ t ∈ trace (partyStep (some identity)) {} calls, LeadsOn t) ↔
      ∀ t ∈ trace (partyStep (some identity)) {} calls, PromotesOne t.before t.input := by
  have hstart : OneLeader {} := fun h => absurd rfl h
  generalize ({} : PartyState) = state at hstart ⊢
  induction calls generalizing state with
  | nil => simp
  | cons call calls ih =>
    rw [trace, List.forall_mem_cons, List.forall_mem_cons, leadsOn_iff hstart]
    refine and_congr_right fun hone => ih _ ((leadsOn_iff hstart).2 hone).1

/-- A promotion of an account that is not in the party is refused and leaves the party without a leader. -/
theorem one_leader_false :
    ¬∀ (identity : Identity) (calls : List PartyCall), ∀ t ∈ trace (partyStep (some identity)) {} calls, LeadsOn t := by
  intro h
  have hpromote := h ⟨"ours".toList, "Sam".toList⟩
    [.inviteToParty none (some "theirs".toList) none, .promoteToLeader (some "nobody".toList) none] _ (List.mem_cons_of_mem _ List.mem_cons_self)
  exact absurd (hpromote.1 (by decide)) (by decide)

end Scbl.Hooks
