import Scbl.ControlPlane.Presence

/-!
# The presence list and its specification

`Listed` says of the calls so far which clients are present: those whose latest heartbeat at their address is fresh and was not followed by
one from another address with the same instance id. Every step keeps that the entries are these clients (`Recorded.step`), so that every list
that is returned is that of the specification.
-/

namespace Scbl.ControlPlane.Presence

open Scbl.Lib

/-- Times do not decrease, and a heartbeat is seen at the time of its call. -/
structure Timely (calls : List TimedCall) : Prop where
  ordered : calls.Pairwise (fun c d => c.now ≤ d.now)
  seen : ∀ c ∈ calls, ∀ state, c.call = .upsert state → state.lastSeenMs = c.now

/-- The latest heartbeat at an address is one of this client, at this time, and the calls after it are these. -/
structure LatestAt (past : List TimedCall) (state : ClientState) (seenAt : Int) (after : List TimedCall) : Prop where
  heartbeat : ∃ before, past = before ++ ⟨seenAt, .upsert state⟩ :: after
  latest : ∀ c ∈ after, ∀ later, c.call = .upsert later → later.virtualIp ≠ state.virtualIp

/-- A heartbeat from a different address with the same nonempty instance id. -/
def MovedAway (state later : ClientState) : Prop :=
  later.virtualIp ≠ state.virtualIp ∧ later.instanceId = state.instanceId ∧ later.instanceId ≠ []

/-- The clients that are present at a time, by the calls before it. -/
def Listed (ttlSeconds : Nat) (past : List TimedCall) (now : Int) (state : ClientState) : Prop :=
  ∃ seenAt after, LatestAt past state seenAt after ∧ now - ttlSeconds * 1000 ≤ seenAt ∧
    ∀ c ∈ after, ∀ later, c.call = .upsert later → ¬ MovedAway state later

/-! ## The clients that no later heartbeat replaces -/

/-- A heartbeat after which no other one sets the entry of its address or takes it out. -/
inductive Current : List TimedCall → ClientState → Prop
  | heartbeat (past : List TimedCall) (now : Int) (state : ClientState) : Current (past ++ [⟨now, .upsert state⟩]) state
  | later {past : List TimedCall} {state : ClientState} (c : TimedCall)
      (hkept : ∀ later, c.call = .upsert later → later.virtualIp ≠ state.virtualIp ∧ ¬ MovedAway state later) :
      Current past state → Current (past ++ [c]) state

theorem current_snoc {past : List TimedCall} {c : TimedCall} {state : ClientState} :
    Current (past ++ [c]) state ↔ c.call = .upsert state ∨
      (Current past state ∧ ∀ later, c.call = .upsert later → later.virtualIp ≠ state.virtualIp ∧ ¬ MovedAway state later) := by
  constructor
  · intro h
    generalize hcalls : past ++ [c] = calls at h
    cases h with
    | heartbeat past' now =>
      obtain ⟨rfl, rfl⟩ := List.append_singleton_inj.mp hcalls
      exact .inl rfl
    | later c' hkept hcurrent =>
      obtain ⟨rfl, rfl⟩ := List.append_singleton_inj.mp hcalls
      exact .inr ⟨hcurrent, hkept⟩
  · rintro (hcall | ⟨hcurrent, hkept⟩)
    · obtain ⟨now, call⟩ := c
      subst hcall
      exact .heartbeat past now state
    · exact .later c hkept hcurrent

theorem not_current_nil (state : ClientState) : ¬ Current [] state := by
  intro h
  generalize hcalls : ([] : List TimedCall) = calls at h
  cases h <;> simp at hcalls

/-- A client is current by the calls after its heartbeat. -/
theorem current_iff {past : List TimedCall} {state : ClientState} :
    Current past state ↔ ∃ seenAt after, LatestAt past state seenAt after ∧
      ∀ c ∈ after, ∀ later, c.call = .upsert later → ¬ MovedAway state later := by
  constructor
  · intro h
    induction h with
    | heartbeat past now state =>
      exact ⟨now, [], ⟨⟨past, rfl⟩, fun c hc => absurd hc List.not_mem_nil⟩, fun c hc => absurd hc List.not_mem_nil⟩
    | @later past state c hkept _ ih =>
      obtain ⟨seenAt, after, ⟨⟨before, rfl⟩, hlatest⟩, hmoved⟩ := ih
      have hcalls : before ++ ⟨seenAt, .upsert state⟩ :: after ++ [c] = before ++ ⟨seenAt, .upsert state⟩ :: (after ++ [c]) :=
        List.append_assoc ..
      refine ⟨seenAt, after ++ [c], ⟨⟨before, hcalls⟩, fun d hd later hcall => ?_⟩, fun d hd later hcall => ?_⟩
      · rcases List.mem_append.mp hd with hd | hd
        · exact hlatest d hd later hcall
        · exact (hkept later (List.mem_singleton.mp hd ▸ hcall)).1
      · rcases List.mem_append.mp hd with hd | hd
        · exact hmoved d hd later hcall
        · exact (hkept later (List.mem_singleton.mp hd ▸ hcall)).2
  · rintro ⟨seenAt, after, ⟨⟨before, rfl⟩, hlatest⟩, hmoved⟩
    -- on the calls after the heartbeat, from the last one
    induction after using List.reverseRecOn with
    | nil => exact .heartbeat before seenAt state
    | append_singleton after c ih =>
      rw [← List.cons_append, ← List.append_assoc]
      have hin : ∀ {d}, d ∈ after → d ∈ after ++ [c] := List.mem_append_left [c]
      have hlast : c ∈ after ++ [c] := List.mem_append_right after List.mem_cons_self
      exact .later c (fun later hcall => ⟨hlatest c hlast later hcall, hmoved c hlast later hcall⟩)
        (ih (fun d hd => hmoved d (hin hd)) fun d hd => hlatest d (hin hd))

/-! ## What is recorded -/

/-- The entries are the current clients that were fresh at every call so far. -/
structure Recorded (ttlSeconds : Nat) (past : List TimedCall) (clients : RuntimeState) : Prop where
  keyed : Keyed clients
  mem : ∀ state, Dict.get clients state.virtualIp = some state ↔
    Current past state ∧ ∀ c ∈ past, isFresh ttlSeconds c.now state = true

theorem recorded_nil (ttlSeconds : Nat) : Recorded ttlSeconds [] [] := by
  refine ⟨keyed_nil, fun state => ?_⟩
  rw [Dict.get_nil]
  exact iff_of_false (Option.some_ne_none state).symm fun h => not_current_nil state h.1

variable {ttlSeconds : Nat} {past : List TimedCall} {clients : RuntimeState}

/-- A call at which nothing is entered leaves the clients that are fresh. -/
theorem Recorded.cleanup (h : Recorded ttlSeconds past clients) (c : TimedCall) (hcall : ∀ state, c.call ≠ .upsert state) :
    Recorded ttlSeconds (past ++ [c]) (cleanup ttlSeconds c.now clients) := by
  refine ⟨h.keyed.cleanup ttlSeconds c.now, fun state => ?_⟩
  rw [get_cleanup h.keyed, Option.filter_eq_some_iff, h.mem, current_snoc, or_iff_right (hcall state),
    and_iff_left fun later hlater => absurd hlater (hcall later), and_assoc]
  simp only [List.mem_append, List.mem_singleton, or_imp, forall_and, forall_eq]

/-- A heartbeat is entered, and leaves the fresh clients that it does not replace. -/
theorem Recorded.upsert (h : Recorded ttlSeconds past clients) {now : Int} {state : ClientState} (hseen : state.lastSeenMs = now)
    (hordered : ∀ c ∈ past, c.now ≤ now) : Recorded ttlSeconds (past ++ [⟨now, .upsert state⟩]) (upsert ttlSeconds now clients state) := by
  refine ⟨h.keyed.upsert ttlSeconds now state, fun other => ?_⟩
  have hfresh : ∀ c ∈ past ++ [⟨now, .upsert state⟩], isFresh ttlSeconds c.now state = true := by
    intro c hc
    have hle : c.now ≤ now := by
      rcases List.mem_append.mp hc with hc | hc
      · exact hordered c hc
      · rw [List.mem_singleton.mp hc]
    rw [isFresh_iff]
    omega
  rw [current_snoc]
  by_cases hip : other.virtualIp = state.virtualIp
  · -- at its own address there is the heartbeat itself
    rw [hip, get_upsert_self, Option.some_inj]
    constructor
    · rintro rfl
      exact ⟨.inl rfl, hfresh⟩
    · rintro ⟨hcall | ⟨-, hkept⟩, -⟩
      · exact Call.upsert.inj hcall
      · exact absurd rfl (hip ▸ (hkept state rfl).1)
  · have hne : state ≠ other := fun heq => hip (heq ▸ rfl)
    have hcall : Call.upsert state ≠ .upsert other := fun heq => hne (Call.upsert.inj heq)
    have hmoved : (!evicts state other) = true ↔ ¬ MovedAway other state := by
      rw [Bool.not_eq_true', ← Bool.not_eq_true, evicts_iff, MovedAway, not_iff_not]
      exact ⟨fun ⟨hnonempty, hid⟩ => ⟨Ne.symm hip, hid.symm, hnonempty⟩, fun ⟨_, hid, hnonempty⟩ => ⟨hnonempty, hid.symm⟩⟩
    rw [get_upsert_other h.keyed ttlSeconds now state hip, Option.filter_eq_some_iff, h.mem, Bool.and_eq_true, hmoved, or_iff_right hcall]
    constructor
    · rintro ⟨⟨hcurrent, hpast⟩, hnow, haway⟩
      refine ⟨⟨hcurrent, fun later hlater => Call.upsert.inj hlater ▸ ⟨Ne.symm hip, haway⟩⟩, fun c hc => ?_⟩
      rcases List.mem_append.mp hc with hc | hc
      · exact hpast c hc
      · rw [List.mem_singleton.mp hc]
        exact hnow
    · rintro ⟨⟨hcurrent, hkept⟩, hall⟩
      have hnow := hall _ (List.mem_append_right _ List.mem_cons_self)
      exact ⟨⟨hcurrent, fun c hc => hall c (List.mem_append_left _ hc)⟩, hnow, (hkept state rfl).2⟩

/-- One step keeps what is recorded. -/
theorem Recorded.step (h : Recorded ttlSeconds past clients) (c : TimedCall) (hordered : ∀ d ∈ past, d.now ≤ c.now)
    (hseen : ∀ state, c.call = .upsert state → state.lastSeenMs = c.now) :
    Recorded ttlSeconds (past ++ [c]) (step ttlSeconds clients c).1 := by
  obtain ⟨now, call⟩ := c
  cases call with
  | upsert state => exact h.upsert (hseen state rfl) hordered
  | cleanup => exact h.cleanup ⟨now, .cleanup⟩ fun _ heq => Call.noConfusion heq
  | activeClients => exact h.cleanup ⟨now, .activeClients⟩ fun _ heq => Call.noConfusion heq

/-- The fresh current clients are the listed ones. -/
theorem listed_iff {now : Int} {state : ClientState} (hseen : ∀ c ∈ past, ∀ state, c.call = .upsert state → state.lastSeenMs = c.now)
    (hordered : ∀ c ∈ past, c.now ≤ now) :
    Listed ttlSeconds past now state ↔
      Current (past ++ [⟨now, .activeClients⟩]) state ∧
        ∀ c ∈ past ++ [⟨now, .activeClients⟩], isFresh ttlSeconds c.now state = true := by
  have hall : (∀ c ∈ past ++ [⟨now, .activeClients⟩], isFresh ttlSeconds c.now state = true) ↔
      now - ttlSeconds * 1000 ≤ state.lastSeenMs := by
    constructor
    · exact fun h => isFresh_iff.mp (h _ (List.mem_append_right _ List.mem_cons_self))
    · intro h c hc
      rw [isFresh_iff]
      rcases List.mem_append.mp hc with hc | hc
      · have := hordered c hc
        omega
      · rw [List.mem_singleton.mp hc]
        exact h
  have htime : ∀ seenAt after, LatestAt past state seenAt after → state.lastSeenMs = seenAt := by
    rintro seenAt after ⟨⟨before, rfl⟩, -⟩
    exact hseen ⟨seenAt, .upsert state⟩ (List.mem_append_right _ List.mem_cons_self) state rfl
  have hcurrent : Current (past ++ [⟨now, .activeClients⟩]) state ↔ Current past state := by
    have hnot : ∀ later, Call.activeClients ≠ .upsert later := fun _ heq => Call.noConfusion heq
    rw [current_snoc, or_iff_right (hnot state), and_iff_left fun later heq => absurd heq (hnot later)]
  rw [hall, hcurrent, current_iff]
  constructor
  · rintro ⟨seenAt, after, hlatest, hfresh, hmoved⟩
    exact ⟨⟨seenAt, after, hlatest, hmoved⟩, htime _ _ hlatest ▸ hfresh⟩
  · rintro ⟨⟨seenAt, after, hlatest, hmoved⟩, hfresh⟩
    exact ⟨seenAt, after, hlatest, htime _ _ hlatest ▸ hfresh, hmoved⟩

/-! ## The specification -/

/-- What is asked of the list that is returned at a time after some calls. -/
structure IsPresenceList (ttlSeconds : Nat) (past : List TimedCall) (now : Int) (listed : List ClientState) : Prop where
  ordered : listed.Pairwise (fun a b => lastOctet a.virtualIp.text ≤ lastOctet b.virtualIp.text)
  addressOnce : (listed.map (·.virtualIp)).Nodup
  mem : ∀ state, state ∈ listed ↔ Listed ttlSeconds past now state
  instanceOnce : ∀ a ∈ listed, ∀ b ∈ listed, a.instanceId = b.instanceId → a.instanceId ≠ [] → a = b

/-- Apart from expiry a heartbeat sets the entry of its address, and takes out those with its instance id. -/
structure IsHeartbeatOf (ttlSeconds : Nat) (now : Int) (state : ClientState) (before after : RuntimeState) : Prop where
  own : Dict.get after state.virtualIp = some state
  others : ∀ ip, ip ≠ state.virtualIp → Dict.get after ip =
    (Dict.get before ip).filter (fun existing => isFresh ttlSeconds now existing && !evicts state existing)

/-- What is asked of every call of a run. -/
def IsPresenceRun (ttlSeconds : Nat) (calls : List TimedCall) : Prop :=
  ∀ past t rest, trace (step ttlSeconds) [] calls = past ++ t :: rest →
    (t.input.call = .activeClients → IsPresenceList ttlSeconds (past.map (·.input)) t.input.now t.output) ∧
    ∀ state, t.input.call = .upsert state → IsHeartbeatOf ttlSeconds t.input.now state t.before t.after

/-- No two listed clients share an instance id: the later heartbeat took out the other one. -/
theorem eq_of_listed {now : Int} {a b : ClientState} (ha : Listed ttlSeconds past now a) (hb : Listed ttlSeconds past now b)
    (hid : a.instanceId = b.instanceId) (hnonempty : a.instanceId ≠ []) : a = b := by
  obtain ⟨s, after, ⟨⟨before, hpast⟩, hlatest⟩, -, hmoved⟩ := ha
  obtain ⟨s', after', ⟨⟨before', hpast'⟩, hlatest'⟩, -, hmoved'⟩ := hb
  -- neither heartbeat comes after the other
  have hapart : ∀ {a b : ClientState} {s : Int} {after : List TimedCall}, a.instanceId = b.instanceId → a.instanceId ≠ [] →
      (∀ c ∈ after, ∀ later, c.call = .upsert later → later.virtualIp ≠ a.virtualIp) →
      (∀ c ∈ after, ∀ later, c.call = .upsert later → ¬ MovedAway a later) → (⟨s, .upsert b⟩ : TimedCall) ∉ after :=
    fun hid hnonempty hlatest hmoved hin => hmoved _ hin _ rfl ⟨hlatest _ hin _ rfl, hid.symm, hid ▸ hnonempty⟩
  rcases List.append_eq_append_iff.mp (hpast.symm.trans hpast') with ⟨middle, hbefore, hafter⟩ | ⟨middle, hbefore, hafter⟩
  · cases middle with
    | nil => exact Call.upsert.inj (TimedCall.mk.inj (List.cons.inj hafter).1).2
    | cons first middle =>
      obtain ⟨-, rfl⟩ := List.cons.inj hafter
      exact absurd (List.mem_append_right _ List.mem_cons_self) (hapart hid hnonempty hlatest hmoved)
  · cases middle with
    | nil => exact (Call.upsert.inj (TimedCall.mk.inj (List.cons.inj hafter).1).2).symm
    | cons first middle =>
      obtain ⟨-, rfl⟩ := List.cons.inj hafter
      exact absurd (List.mem_append_right _ List.mem_cons_self) (hapart hid.symm (hid ▸ hnonempty) hlatest' hmoved')

/-- A list that is returned is that of the specification. -/
theorem Recorded.isPresenceList (h : Recorded ttlSeconds past clients) {now : Int}
    (hseen : ∀ c ∈ past, ∀ state, c.call = .upsert state → state.lastSeenMs = c.now) (hordered : ∀ c ∈ past, c.now ≤ now) :
    IsPresenceList ttlSeconds past now (activeClients ttlSeconds now clients).2 := by
  let c : TimedCall := ⟨now, .activeClients⟩
  have hleft := h.cleanup c fun _ heq => Call.noConfusion heq
  have hperm := List.perm_insertionSort (fun a b : ClientState => lastOctet a.virtualIp.text ≤ lastOctet b.virtualIp.text)
    ((Presence.cleanup ttlSeconds now clients).map Prod.snd)
  have hmem : ∀ state, state ∈ (activeClients ttlSeconds now clients).2 ↔ Listed ttlSeconds past now state := by
    intro state
    rw [listed_iff hseen hordered, ← hleft.mem, ← hleft.keyed.mem_iff]
    exact hperm.mem_iff
  refine ⟨?_, ?_, hmem, fun a ha b hb => eq_of_listed ((hmem a).mp ha) ((hmem b).mp hb)⟩
  · have : Std.Total (fun a b : ClientState => lastOctet a.virtualIp.text ≤ lastOctet b.virtualIp.text) := ⟨fun a b => Nat.le_total _ _⟩
    have : IsTrans ClientState (fun a b => lastOctet a.virtualIp.text ≤ lastOctet b.virtualIp.text) := ⟨fun _ _ _ => Nat.le_trans⟩
    exact List.pairwise_insertionSort _ _
  · have hkeys : ((Presence.cleanup ttlSeconds now clients).map Prod.snd).map (·.virtualIp) =
        (Presence.cleanup ttlSeconds now clients).map Prod.fst := by
      rw [List.map_map]
      exact List.map_congr_left fun item hitem => hleft.keyed.ownAddress item hitem
    exact (hperm.map _).nodup_iff.mpr (hkeys ▸ hleft.keyed.nodup)

/-- The calls before one are earlier, and what is recorded follows them. -/
theorem recorded_of_timely {calls : List TimedCall} (h : Timely calls) {past rest : List (Transition RuntimeState TimedCall (List ClientState))}
    {t : Transition RuntimeState TimedCall (List ClientState)} (htrace : trace (step ttlSeconds) [] calls = past ++ t :: rest) :
    Recorded ttlSeconds (past.map (·.input)) t.before ∧ (∀ c ∈ past.map (·.input), c.now ≤ t.input.now) ∧
      ∀ c ∈ past.map (·.input), ∀ state, c.call = .upsert state → state.lastSeenMs = c.now := by
  have hinputs : ∀ past t rest, trace (step ttlSeconds) [] calls = past ++ t :: rest →
      calls = past.map (·.input) ++ t.input :: rest.map (·.input) := by
    intro past t rest htrace
    rw [← @trace_inputs _ _ _ (step ttlSeconds) [] calls, htrace, List.map_append, List.map_cons]
  have hearlier : ∀ past t rest, trace (step ttlSeconds) [] calls = past ++ t :: rest →
      (∀ c ∈ past.map (·.input), c.now ≤ t.input.now) ∧
        ∀ c ∈ past.map (·.input) ++ [t.input], ∀ state, c.call = .upsert state → state.lastSeenMs = c.now := by
    intro past t rest htrace
    have hcalls := hinputs past t rest htrace
    constructor
    · exact fun c hc => (List.pairwise_append.mp (hcalls ▸ h.ordered)).2.2 c hc t.input List.mem_cons_self
    · intro c hc
      refine h.seen c ?_
      rw [hcalls, List.append_cons]
      exact List.mem_append_left _ hc
  have hrun := trace_history_of (P := fun past clients => Recorded ttlSeconds (past.map (·.input)) clients)
    (fun past t => (∀ c ∈ past.map (·.input), c.now ≤ t.input.now) ∧
      ∀ c ∈ past.map (·.input) ++ [t.input], ∀ state, c.call = .upsert state → state.lastSeenMs = c.now)
    (fun past clients c hrecorded hc => by
      rw [List.map_append]
      exact hrecorded.step c hc.1 (hc.2 c (List.mem_append_right _ List.mem_cons_self)))
    (recorded_nil ttlSeconds) hearlier past t rest htrace
  exact ⟨hrun.1, (hearlier past t rest htrace).1, fun c hc => (hearlier past t rest htrace).2 c (List.mem_append_left _ hc)⟩

/-- Over every run of calls in the course of time, the lists that are returned are those of the specification, and a heartbeat changes no
other entries than those at its address and those with its instance id. -/
theorem presence_list_exact (ttlSeconds : Nat) (calls : List TimedCall) (h : Timely calls) : IsPresenceRun ttlSeconds calls := by
  intro past t rest htrace
  obtain ⟨hrecorded, hordered, hseen⟩ := recorded_of_timely h htrace
  have ht : t ∈ trace (step ttlSeconds) [] calls := htrace ▸ List.mem_append_right _ List.mem_cons_self
  have hstep := (mem_trace ht).2
  constructor
  · intro hcall
    rw [step, hcall] at hstep
    have houtput : (activeClients ttlSeconds t.input.now t.before).2 = t.output := congrArg Prod.snd hstep
    exact houtput ▸ hrecorded.isPresenceList hseen hordered
  · intro state hcall
    rw [step, hcall] at hstep
    have hafter : upsert ttlSeconds t.input.now t.before state = t.after := congrArg Prod.fst hstep
    exact hafter ▸ ⟨get_upsert_self .., fun ip hne => get_upsert_other hrecorded.keyed ttlSeconds t.input.now state hne⟩

/-- A client with an address and an instance id, seen at a time. -/
def sampleClient (virtualIp : OverlayIp) (instanceId : Str) (lastSeenMs : Int) : ClientState :=
  { username := [80], virtualIp, instanceId, clientVersion := [], easytierVersion := [], gameRunning := false, gameRole := [],
    gamePeerIp := [], serverLatencyMs := none, serverTransport := [], serverAddressFamily := [], gameLatencyMs := none, gameTransport := [],
    gameAddressFamily := [], nextHop := [], hopCount := none, gameLatencyP50Ms := none, gameLatencyP95Ms := none, gameJitterMs := none,
    gameLossPercent := none, lastSeenMs }

/-- One instance moves to another address, and a second client is there. -/
def sampleCalls : List TimedCall :=
  [⟨0, .upsert (sampleClient ⟨"10.66.0.7".toList, by decide⟩ [1] 0)⟩,
    ⟨4000, .upsert (sampleClient ⟨"10.66.0.9".toList, by decide⟩ [] 4000)⟩,
    ⟨5000, .upsert (sampleClient ⟨"10.66.0.3".toList, by decide⟩ [1] 5000)⟩, ⟨9000, .activeClients⟩]

example : ((trace (step 20) [] sampleCalls).map (fun t => t.output.map (fun c => c.virtualIp.text))).getLast? =
    some ["10.66.0.3".toList, "10.66.0.9".toList] := by decide

theorem presence_list_exact_sample : IsPresenceRun 20 sampleCalls :=
  presence_list_exact 20 sampleCalls ⟨by decide, by simp [sampleCalls, sampleClient]⟩

end Scbl.ControlPlane.Presence
