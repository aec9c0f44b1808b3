import Scbl.Hooks.InviteIdState

/-!
# Local invitation ids are faithful

An id that was handed out stands for one invitation of the server for good; the invitation keeps it until it is retired, and has a new one
afterwards.
-/

namespace Scbl.Hooks

open Scbl.Lib

abbrev InviteTransition := Transition (Option InviteIdState) InviteCall (Option Int)

/-- An event for a server id is given a local id. -/
def HandsOut (t : InviteTransition) (serverId localId : Int) : Prop := t.input = .mapServerEvent serverId ∧ t.output = some localId

def Retires (t : InviteTransition) (localId : Int) : Prop := t.input = .retireLocal localId

/-- The ids that are handed out in the calls of a run. -/
structure Faithful (events : List InviteTransition) : Prop where
  distinct : ∀ a ∈ events, ∀ b ∈ events, ∀ serverId serverId' localId, HandsOut a serverId localId → HandsOut b serverId' localId →
    serverId = serverId'
  resolves : ∀ past a rest serverId localId, events = past ++ a :: rest → HandsOut a serverId localId →
    ∀ b ∈ a :: rest, ∀ state, b.after = some state → state.serverIdForLocal localId = serverId
  repeated : ∀ past a mid b rest serverId localId localId', events = past ++ a :: mid ++ b :: rest → HandsOut a serverId localId →
    (∀ t ∈ mid, ¬Retires t localId) → HandsOut b serverId localId' → localId' = localId
  fresh : ∀ past a mid r mid' b rest serverId localId localId', events = past ++ a :: mid ++ r :: mid' ++ b :: rest →
    HandsOut a serverId localId → (∀ t ∈ mid, ¬Retires t localId) → Retires r localId →
    (∀ t ∈ mid', ∀ other, ¬HandsOut t serverId other) → HandsOut b serverId localId' →
    ∀ t ∈ past ++ a :: mid ++ r :: mid', ∀ other, ¬HandsOut t other localId'

namespace InviteIds

/-- A list with one more element at its end, split at one of its elements. -/
theorem split_snoc {α : Type} {l x y : List α} {t a : α} (h : l ++ [t] = x ++ a :: y) :
    (l = x ∧ t = a ∧ y = []) ∨ ∃ y', y = y' ++ [t] ∧ l = x ++ a :: y' := by
  rcases List.eq_nil_or_concat y with rfl | ⟨y', t', rfl⟩
  · obtain ⟨rfl, ha⟩ := List.append_inj' h rfl
    exact .inl ⟨rfl, (List.cons.inj ha).1, rfl⟩
  · rw [List.concat_eq_append, ← List.cons_append, ← List.append_assoc] at h
    obtain ⟨rfl, ht⟩ := List.append_inj' h rfl
    exact .inr ⟨y', by rw [List.concat_eq_append, (List.cons.inj ht).1], rfl⟩

/-- The id of an invitation is the one it was given last, if that was not retired. -/
def KeepsCurrent (past : List InviteTransition) (state : InviteIdState) : Prop :=
  ∀ x a y serverId localId, past = x ++ a :: y → HandsOut a serverId localId → (∀ t ∈ y, ¬Retires t localId) →
    state.serverToCurrent.lookup serverId = some (localId, false)

/-- The id of an invitation is retired, if it was retired since it was given. -/
def KeepsRetired (past : List InviteTransition) (state : InviteIdState) : Prop :=
  ∀ x a y r z serverId localId, past = x ++ a :: y ++ r :: z → HandsOut a serverId localId → (∀ t ∈ y, ¬Retires t localId) →
    Retires r localId → (∀ t ∈ z, ∀ other, ¬HandsOut t serverId other) → state.serverToCurrent.lookup serverId = some (localId, true)

/-- What the maps tell of the calls so far. -/
structure Tracks (past : List InviteTransition) (state : InviteIdState) : Prop where
  allocated : ∃ lowest, state.Allocated lowest
  handed : ∀ localId serverId, state.localToServer.lookup localId = some serverId ↔ ∃ t ∈ past, HandsOut t serverId localId
  inverse : ∀ serverId localId retired, state.serverToCurrent.lookup serverId = some (localId, retired) →
    state.localToServer.lookup localId = some serverId
  current : KeepsCurrent past state
  retired : KeepsRetired past state

/-- Every local id was handed out. -/
def Exhausted (events : List InviteTransition) : Prop := ∀ id, i64Min ≤ id → id < 0 → ∃ t ∈ events, ∃ serverId, HandsOut t serverId id

def Distinct (events : List InviteTransition) : Prop :=
  ∀ a ∈ events, ∀ b ∈ events, ∀ serverId serverId' localId, HandsOut a serverId localId → HandsOut b serverId' localId → serverId = serverId'

/-- What holds after some calls. -/
def History (past : List InviteTransition) (state : Option InviteIdState) : Prop :=
  Distinct past ∧ match state with
    | some state => Tracks past state
    | none => Exhausted past

theorem Tracks.distinct {past : List InviteTransition} {state : InviteIdState} (h : Tracks past state) : Distinct past := by
  intro a ha b hb serverId serverId' localId hha hhb
  have hs := (h.handed localId serverId).2 ⟨a, ha, hha⟩
  have hs' := (h.handed localId serverId').2 ⟨b, hb, hhb⟩
  exact Option.some.inj (hs.symm.trans hs')

theorem handsOut_snoc {past : List InviteTransition} {t : InviteTransition} {serverId localId : Int} :
    (∃ u ∈ past ++ [t], HandsOut u serverId localId) ↔ (∃ u ∈ past, HandsOut u serverId localId) ∨ HandsOut t serverId localId := by
  simp only [List.mem_append, List.mem_singleton, or_and_right, exists_or, exists_eq_left]

theorem tracks_new : Tracks [] .new where
  allocated := ⟨0, InviteIdState.allocated_new⟩
  handed _ _ := iff_of_false (by simp [InviteIdState.new]) (by simp)
  inverse _ _ _ h := by simp [InviteIdState.new] at h
  current x a y _ _ h := absurd h (by simp)
  retired x a y r z _ _ h := absurd h (by simp)

/-! ## One call -/

/-- A call that hands out nothing keeps what the ids were handed out for. -/
theorem handed_of_silent {past : List InviteTransition} {state : InviteIdState} {t : InviteTransition}
    (h : Tracks past state) (ht : ∀ serverId localId, ¬HandsOut t serverId localId) (localId serverId : Int) :
    state.localToServer.lookup localId = some serverId ↔ ∃ u ∈ past ++ [t], HandsOut u serverId localId := by
  rw [handsOut_snoc, or_iff_left (ht _ _)]
  exact h.handed localId serverId

/-- An id is retired. -/
theorem Tracks.retire {past : List InviteTransition} {state : InviteIdState} (h : Tracks past state) {t : InviteTransition} {localId : Int}
    (hinput : t.input = .retireLocal localId) : Tracks (past ++ [t]) (state.retireLocal localId) := by
  have hsilent : ∀ serverId id, ¬HandsOut t serverId id := fun _ _ hand => by
    rw [HandsOut, hinput] at hand
    nomatch hand.1
  have hmap := (state.retireLocal_localToServer localId).1
  refine ⟨?_, ?_, ?_, ?_, ?_⟩
  · obtain ⟨lowest, hlowest⟩ := h.allocated
    exact ⟨lowest, hlowest.retireLocal localId⟩
  · intro id serverId
    rw [hmap]
    exact handed_of_silent h hsilent id serverId
  · intro serverId id retired hlookup
    rw [hmap]
    rw [InviteIdState.lookup_retireLocal] at hlookup
    split at hlookup
    · rename_i hand
      cases hlookup
      exact hand.1
    · exact h.inverse serverId id retired hlookup
  · intro x a y serverId id hsplit hhands hno
    rcases split_snoc hsplit with ⟨rfl, rfl, rfl⟩ | ⟨y', rfl, rfl⟩
    · exact absurd hhands (hsilent _ _)
    · have hne : id ≠ localId := fun heq => hno t (by simp) (heq ▸ hinput)
      have hcurrent := h.current x a y' serverId id rfl hhands fun u hu => hno u (List.mem_append_left _ hu)
      rw [InviteIdState.lookup_retireLocal, if_neg]
      · exact hcurrent
      · rintro ⟨-, r, hr⟩
        exact hne (congrArg Prod.fst (Option.some.inj (hcurrent.symm.trans hr)))
  · intro x a y r z serverId id hsplit hhands hno hretires hnone
    rcases split_snoc hsplit with ⟨rfl, rfl, rfl⟩ | ⟨z', rfl, rfl⟩
    · -- the call retires the current id
      have hid : id = localId := by
        rw [Retires, hinput] at hretires
        exact (InviteCall.retireLocal.inj hretires).symm
      subst hid
      have hcurrent := h.current x a y serverId id rfl hhands hno
      rw [InviteIdState.lookup_retireLocal, if_pos ⟨h.inverse _ _ _ hcurrent, false, hcurrent⟩]
    · have hretired := h.retired x a y r z' serverId id rfl hhands hno hretires fun u hu => hnone u (List.mem_append_left _ hu)
      rw [InviteIdState.lookup_retireLocal]
      split
      · rename_i hand
        obtain ⟨-, r', hr'⟩ := hand
        obtain rfl : id = localId := congrArg Prod.fst (Option.some.inj (hretired.symm.trans hr'))
        rfl
      · exact hretired

/-- An invitation is known under its id. -/
theorem Tracks.again {past : List InviteTransition} {state : InviteIdState} (h : Tracks past state) {t : InviteTransition}
    {serverId localId : Int} (hinput : t.input = .mapServerEvent serverId) (houtput : t.output = some localId)
    (hcurrent : state.serverToCurrent.lookup serverId = some (localId, false)) : Tracks (past ++ [t]) state := by
  have hhands : ∀ serverId' id, HandsOut t serverId' id ↔ serverId' = serverId ∧ id = localId := by
    intro serverId' id
    rw [HandsOut, hinput, houtput, InviteCall.mapServerEvent.injEq, Option.some.injEq, eq_comm, @eq_comm _ localId]
  refine ⟨h.allocated, ?_, h.inverse, ?_, ?_⟩
  · intro id serverId'
    rw [handsOut_snoc, h.handed, hhands]
    refine ⟨.inl, fun hor => hor.elim (fun hpast => hpast) ?_⟩
    rintro ⟨rfl, rfl⟩
    exact (h.handed _ _).1 (h.inverse _ _ _ hcurrent)
  · intro x a y serverId' id hsplit hh hno
    rcases split_snoc hsplit with ⟨rfl, rfl, rfl⟩ | ⟨y', rfl, rfl⟩
    · obtain ⟨rfl, rfl⟩ := (hhands _ _).1 hh
      exact hcurrent
    · exact h.current x a y' serverId' id rfl hh fun u hu => hno u (List.mem_append_left _ hu)
  · intro x a y r z serverId' id hsplit hh hno hretires hnone
    rcases split_snoc hsplit with ⟨rfl, rfl, rfl⟩ | ⟨z', rfl, rfl⟩
    · rw [Retires, hinput] at hretires
      nomatch hretires
    · exact h.retired x a y r z' serverId' id rfl hh hno hretires fun u hu => hnone u (List.mem_append_left _ hu)

/-- An invitation is given a new id. -/
theorem Tracks.allocate {past : List InviteTransition} {state : InviteIdState} (h : Tracks past state) {t : InviteTransition}
    {serverId lowest : Int} (hlowest : state.Allocated lowest) (hlower : i64Min < lowest) (hinput : t.input = .mapServerEvent serverId)
    (houtput : t.output = some (lowest - 1)) (hother : ∀ localId, state.serverToCurrent.lookup serverId ≠ some (localId, false)) :
    Tracks (past ++ [t]) ({ state with nextLocalId := saturatingPred (lowest - 1) }.record serverId (lowest - 1)) := by
  have hhands : ∀ serverId' id, HandsOut t serverId' id ↔ serverId' = serverId ∧ id = lowest - 1 := by
    intro serverId' id
    rw [HandsOut, hinput, houtput, InviteCall.mapServerEvent.injEq, Option.some.injEq, eq_comm, @eq_comm _ (lowest - 1)]
  have hfree : state.localToServer.lookup (lowest - 1) = none := by
    rw [AList.lookup_eq_none, hlowest.taken]
    omega
  refine ⟨⟨_, hlowest.record hlower serverId⟩, ?_, ?_, ?_, ?_⟩
  · intro id serverId'
    rw [handsOut_snoc, hhands, InviteIdState.record]
    by_cases hid : id = lowest - 1
    · subst hid
      rw [AList.lookup_insert, ← h.handed, hfree, Option.some.injEq]
      simp [eq_comm]
    · rw [AList.lookup_insert_ne hid, h.handed]
      simp [hid]
  · intro serverId' id retired hlookup
    rw [InviteIdState.record] at hlookup ⊢
    by_cases hs : serverId' = serverId
    · subst hs
      rw [AList.lookup_insert] at hlookup
      cases hlookup
      exact AList.lookup_insert _
    · rw [AList.lookup_insert_ne hs] at hlookup
      have hid := h.inverse _ _ _ hlookup
      rwa [AList.lookup_insert_ne fun heq => by rw [heq, hfree] at hid; cases hid]
  · intro x a y serverId' id hsplit hh hno
    rw [InviteIdState.record]
    rcases split_snoc hsplit with ⟨rfl, rfl, rfl⟩ | ⟨y', rfl, rfl⟩
    · obtain ⟨rfl, rfl⟩ := (hhands _ _).1 hh
      exact AList.lookup_insert _
    · have hcurrent := h.current x a y' serverId' id rfl hh fun u hu => hno u (List.mem_append_left _ hu)
      have hne : serverId' ≠ serverId := by
        rintro rfl
        exact hother id hcurrent
      rwa [AList.lookup_insert_ne hne]
  · intro x a y r z serverId' id hsplit hh hno hretires hnone
    rw [InviteIdState.record]
    rcases split_snoc hsplit with ⟨rfl, rfl, rfl⟩ | ⟨z', rfl, rfl⟩
    · rw [Retires, hinput] at hretires
      cases hretires
    · have hne : serverId' ≠ serverId := fun heq => hnone t (by simp) (lowest - 1) ((hhands _ _).2 ⟨heq, rfl⟩)
      rw [AList.lookup_insert_ne hne]
      exact h.retired x a y r z' serverId' id rfl hh hno hretires fun u hu => hnone u (List.mem_append_left _ hu)

/-- When there is no id left, all were handed out. -/
theorem Tracks.exhausted {past : List InviteTransition} {state : InviteIdState} (h : Tracks past state)
    (hlowest : state.Allocated i64Min) : Exhausted past := by
  intro id hlower hupper
  obtain ⟨serverId, hserver⟩ := Option.isSome_iff_exists.1 (AList.lookup_isSome.2 ((hlowest.taken id).2 ⟨hlower, hupper⟩))
  obtain ⟨t, ht, hands⟩ := (h.handed id serverId).1 hserver
  exact ⟨t, ht, serverId, hands⟩

/-- A call that hands out nothing keeps the ids apart. -/
theorem distinct_snoc {past : List InviteTransition} {t : InviteTransition} (h : Distinct past)
    (ht : ∀ serverId localId, ¬HandsOut t serverId localId) : Distinct (past ++ [t]) := by
  intro a ha b hb serverId serverId' localId hha hhb
  have hmem : ∀ u ∈ past ++ [t], ∀ serverId, HandsOut u serverId localId → u ∈ past := by
    intro u hu serverId hands
    rcases List.mem_append.1 hu with hu | hu
    · exact hu
    · exact absurd (List.mem_singleton.1 hu ▸ hands) (ht _ _)
  exact h a (hmem a ha _ hha) b (hmem b hb _ hhb) _ _ _ hha hhb

theorem history_step (past : List InviteTransition) (state : Option InviteIdState) (call : InviteCall) (h : History past state) :
    History (past ++ [⟨state, call, (inviteStep state call).2, (inviteStep state call).1⟩]) (inviteStep state call).1 := by
  cases state with
  | none =>
    refine ⟨distinct_snoc h.1 (fun _ _ hands => nomatch hands.2), fun id hlower hupper => ?_⟩
    obtain ⟨t, ht, hands⟩ := h.2 id hlower hupper
    exact ⟨t, List.mem_append_left _ ht, hands⟩
  | some state =>
    have htracks : Tracks past state := h.2
    cases call with
    | retireLocal localId =>
      have hnext := htracks.retire (t := ⟨some state, .retireLocal localId, none, some (state.retireLocal localId)⟩) rfl
      exact ⟨hnext.distinct, hnext⟩
    | mapServerEvent serverId =>
      obtain ⟨lowest, hlowest⟩ := htracks.allocated
      rcases hlowest.mapServerEvent serverId with ⟨localId, hcurrent, heq⟩ | ⟨hother, heq⟩
      · simp only [inviteStep, heq]
        have hnext := htracks.again (t := ⟨some state, .mapServerEvent serverId, some localId, some state⟩) rfl rfl hcurrent
        exact ⟨hnext.distinct, hnext⟩
      · simp only [inviteStep, heq]
        by_cases hlower : i64Min < lowest
        · simp only [if_pos hlower]
          have hnext : Tracks (past ++ [_]) _ := htracks.allocate hlowest hlower (t := ⟨some state, .mapServerEvent serverId, some (lowest - 1),
            some ({ state with nextLocalId := saturatingPred (lowest - 1) }.record serverId (lowest - 1))⟩) rfl rfl hother
          exact ⟨hnext.distinct, hnext⟩
        · simp only [if_neg hlower]
          obtain rfl : lowest = i64Min := le_antisymm (not_lt.1 hlower) hlowest.lower
          refine ⟨distinct_snoc h.1 (fun _ _ hands => nomatch hands.2), fun id hlow hupper => ?_⟩
          obtain ⟨t, ht, hands⟩ := htracks.exhausted hlowest id hlow hupper
          exact ⟨t, List.mem_append_left _ ht, hands⟩

/-- What holds before and after each call of a run. -/
theorem history_of_split {calls : List InviteCall} {past rest : List InviteTransition} {t : InviteTransition}
    (h : trace inviteStep (some .new) calls = past ++ t :: rest) : History past t.before ∧ History (past ++ [t]) t.after :=
  trace_history_of (P := History) (fun _ _ => True) (fun past state call hp _ => history_step past state call hp)
    ⟨(fun _ ha => nomatch ha), tracks_new⟩ (fun _ _ _ _ => trivial) past t rest h

/-- What a call that hands out an id found. -/
theorem tracks_of_handsOut {calls : List InviteCall} {past rest : List InviteTransition} {t : InviteTransition} {serverId localId : Int}
    (h : trace inviteStep (some .new) calls = past ++ t :: rest) (hands : HandsOut t serverId localId) :
    ∃ state lowest, Tracks past state ∧ state.Allocated lowest ∧
      (state.serverToCurrent.lookup serverId = some (localId, false) ∨
        (∀ other, state.serverToCurrent.lookup serverId ≠ some (other, false)) ∧ localId = lowest - 1) := by
  have hstep := (mem_trace (t := t) (by rw [h]; simp)).2
  obtain ⟨hinput, houtput⟩ := hands
  have hhistory := (history_of_split h).1.2
  rw [hinput] at hstep
  cases hbefore : t.before with
  | none =>
    rw [hbefore] at hstep
    have hnone : none = t.output := congrArg Prod.snd hstep
    rw [← hnone] at houtput
    nomatch houtput
  | some state =>
    rw [hbefore] at hstep hhistory
    have htracks : Tracks past state := hhistory
    obtain ⟨lowest, hlowest⟩ := htracks.allocated
    refine ⟨state, lowest, htracks, hlowest, ?_⟩
    have hsnd := (congrArg Prod.snd hstep).trans houtput
    rcases hlowest.mapServerEvent serverId with ⟨current, hcurrent, heq⟩ | ⟨hother, heq⟩
    · simp only [inviteStep, heq, Option.some.injEq] at hsnd
      exact .inl (hsnd ▸ hcurrent)
    · simp only [inviteStep, heq] at hsnd
      split at hsnd
      · rename_i hsome
        split at hsome
        · simp only [Option.some.injEq, Prod.mk.injEq] at hsome hsnd
          exact .inr ⟨hother, hsnd.symm.trans hsome.1.symm⟩
        · nomatch hsome
      · nomatch hsnd

end InviteIds

open InviteIds

/-- Local ids of different invitations are distinct and keep their meaning; an invitation keeps its id until that is retired and is given
one that was never handed out afterwards. A call does not end only when all the local ids were handed out. -/
theorem invite_ids_faithful (calls : List InviteCall) :
    Faithful (trace inviteStep (some .new) calls) ∧
      (run inviteStep (some .new) calls = none →
        ∀ id, i64Min ≤ id → id < 0 → ∃ t ∈ trace inviteStep (some .new) calls, ∃ serverId, HandsOut t serverId id) := by
  have hend : History (trace inviteStep (some .new) calls) (run inviteStep (some .new) calls) :=
    run_history history_step ⟨(fun _ ha => nomatch ha), tracks_new⟩ calls
  refine ⟨⟨hend.1, ?_, ?_, ?_⟩, fun hnone => ?_⟩
  · intro past a rest serverId localId hsplit hands b hb state hafter
    obtain ⟨u, v, huv⟩ := List.append_of_mem hb
    rw [huv, ← List.append_assoc] at hsplit
    have hhistory := (history_of_split hsplit).2.2
    rw [hafter] at hhistory
    have htracks : Tracks (past ++ u ++ [b]) state := hhistory
    have hmem : a ∈ past ++ u ++ [b] := by
      cases u with
      | nil => simp [(List.cons.inj huv).1]
      | cons w u => simp [(List.cons.inj huv).1]
    rw [InviteIdState.serverIdForLocal, (htracks.handed localId serverId).2 ⟨a, hmem, hands⟩, Option.getD_some]
  · intro past a mid b rest serverId localId localId' hsplit hands hno hands'
    obtain ⟨state, lowest, htracks, -, hcurrent | ⟨hother, -⟩⟩ := tracks_of_handsOut hsplit hands'
    · have hkept := htracks.current past a mid serverId localId rfl hands hno
      exact congrArg Prod.fst (Option.some.inj (hcurrent.symm.trans hkept))
    · exact absurd (htracks.current past a mid serverId localId rfl hands hno) (hother localId)
  · intro past a mid r mid' b rest serverId localId localId' hsplit hands hno hretires hnone hands' t ht other hother
    obtain ⟨state, lowest, htracks, hlowest, hcurrent | ⟨-, rfl⟩⟩ := tracks_of_handsOut hsplit hands'
    · have hretired := htracks.retired past a mid r mid' serverId localId rfl hands hno hretires hnone
      rw [hretired] at hcurrent
      nomatch hcurrent
    · have htaken := (hlowest.taken _).1 (AList.lookup_isSome.1 (Option.isSome_of_eq_some ((htracks.handed _ other).2 ⟨t, ht, hother⟩)))
      omega
  · rw [hnone] at hend
    exact hend.2

end Scbl.Hooks
