import Scbl.Lib.HashMap
import Scbl.Lib.Run

/-!
# Local invitation ids

The ids under which the game knows invitations (`api.rs` of the hooks): negative numbers from -1 on, each created for the id that the
server gave an invitation. The server uses its ids again, so an invitation that was answered retires its local id.
-/

namespace Scbl.Hooks

open Scbl.Lib

/-- `i64::MIN`. -/
def i64Min : Int := -2 ^ 63

/-- `n.saturating_sub(1)`. -/
def saturatingPred (n : Int) : Int := max (n - 1) i64Min

structure InviteIdState where
  nextLocalId : Int
  serverToCurrent : AList (fun _ : Int => Int × Bool)
  localToServer : AList (fun _ : Int => Int)

namespace InviteIdState

def new : InviteIdState := { nextLocalId := -1, serverToCurrent := ∅, localToServer := ∅ }

/-- The loop that looks for an id which is not taken. It does not end when it comes to the smallest one and that is taken. -/
def nextFree (taken : AList (fun _ : Int => Int)) (id : Int) : Option Int :=
  if id ∈ taken then
    if i64Min < id then nextFree taken (saturatingPred id) else none
  else some id
termination_by (id - i64Min).toNat
decreasing_by simp only [saturatingPred]; omega

def allocateLocalId (state : InviteIdState) : Option (Int × InviteIdState) :=
  (nextFree state.localToServer state.nextLocalId).map (fun localId => (localId, { state with nextLocalId := saturatingPred localId }))

/-- The insertions for a new local id. -/
def record (state : InviteIdState) (serverId localId : Int) : InviteIdState :=
  { state with
    serverToCurrent := state.serverToCurrent.insert serverId (localId, false)
    localToServer := state.localToServer.insert localId serverId }

def mapServerEvent (state : InviteIdState) (serverId : Int) : Option (Int × InviteIdState) :=
  match state.serverToCurrent.lookup serverId with
  | some (localId, false) => some (localId, state)
  | _ => state.allocateLocalId.map (fun allocated => (allocated.1, allocated.2.record serverId allocated.1))

def serverIdForLocal (state : InviteIdState) (localId : Int) : Int := (state.localToServer.lookup localId).getD localId

def retireLocal (state : InviteIdState) (localId : Int) : InviteIdState :=
  match state.localToServer.lookup localId with
  | none => state
  | some serverId =>
    match state.serverToCurrent.lookup serverId with
    | some (current, _) =>
      if current = localId then { state with serverToCurrent := state.serverToCurrent.insert serverId (current, true) } else state
    | none => state

end InviteIdState

/-- What is done with the ids. -/
inductive InviteCall where
  | mapServerEvent (serverId : Int)
  | retireLocal (localId : Int)
  deriving DecidableEq, Repr

/-- A call on the ids, unless an earlier one does not end, with the local id that is handed out. -/
def inviteStep (state : Option InviteIdState) (call : InviteCall) : Option InviteIdState × Option Int :=
  match state, call with
  | none, _ => (none, none)
  | some state, .mapServerEvent serverId =>
    match state.mapServerEvent serverId with
    | some (localId, state) => (some state, some localId)
    | none => (none, none)
  | some state, .retireLocal localId => (some (state.retireLocal localId), none)

/-! ## What the ids are -/

/-- The ids that are taken are those from the lowest one up to -1. -/
structure InviteIdState.Allocated (state : InviteIdState) (lowest : Int) : Prop where
  lower : i64Min ≤ lowest
  upper : lowest ≤ 0
  next : state.nextLocalId = saturatingPred lowest
  taken : ∀ id, id ∈ state.localToServer ↔ lowest ≤ id ∧ id < 0

namespace InviteIdState

theorem allocated_new : new.Allocated 0 := ⟨by decide, le_refl 0, rfl, fun id => iff_of_false (AList.notMem_empty _) (by omega)⟩

theorem nextFree_of_notMem {taken : AList (fun _ : Int => Int)} {id : Int} (h : id ∉ taken) : nextFree taken id = some id := by
  rw [nextFree, if_neg h]

theorem nextFree_smallest {taken : AList (fun _ : Int => Int)} (h : i64Min ∈ taken) : nextFree taken i64Min = none := by
  rw [nextFree, if_pos h, if_neg (lt_irrefl _)]

/-- The next id is the one below the lowest, as long as there is one. -/
theorem Allocated.allocateLocalId {state : InviteIdState} {lowest : Int} (h : state.Allocated lowest) :
    state.allocateLocalId =
      if i64Min < lowest then some (lowest - 1, { state with nextLocalId := saturatingPred (lowest - 1) }) else none := by
  have hlower := h.lower
  have hupper := h.upper
  have hnext := h.next
  split
  · have hpred : saturatingPred lowest = lowest - 1 := by simp only [saturatingPred]; omega
    have hfree : lowest - 1 ∉ state.localToServer := fun hmem => by
      have := (h.taken _).1 hmem
      omega
    rw [InviteIdState.allocateLocalId, hnext, hpred, nextFree_of_notMem hfree]
    rfl
  · have hlowest : lowest = i64Min := by omega
    have hpred : saturatingPred lowest = i64Min := by simp only [saturatingPred]; omega
    have htaken : i64Min ∈ state.localToServer := (h.taken _).2 ⟨by omega, by decide⟩
    rw [InviteIdState.allocateLocalId, hnext, hpred, nextFree_smallest htaken]
    rfl

/-- A new id is one more that is taken. -/
theorem Allocated.record {state : InviteIdState} {lowest : Int} (h : state.Allocated lowest) (hlower : i64Min < lowest) (serverId : Int) :
    ({ state with nextLocalId := saturatingPred (lowest - 1) }.record serverId (lowest - 1)).Allocated (lowest - 1) := by
  have hupper := h.upper
  refine ⟨by omega, by omega, rfl, fun id => ?_⟩
  simp only [InviteIdState.record, AList.mem_insert, h.taken]
  omega

/-- An event keeps the id of the invitation, or it is given the next one. -/
theorem Allocated.mapServerEvent {state : InviteIdState} {lowest : Int} (h : state.Allocated lowest) (serverId : Int) :
    (∃ localId, state.serverToCurrent.lookup serverId = some (localId, false) ∧ state.mapServerEvent serverId = some (localId, state)) ∨
      (∀ localId, state.serverToCurrent.lookup serverId ≠ some (localId, false)) ∧
        state.mapServerEvent serverId =
          if i64Min < lowest then
            some (lowest - 1, { state with nextLocalId := saturatingPred (lowest - 1) }.record serverId (lowest - 1))
          else none := by
  unfold InviteIdState.mapServerEvent
  split
  · rename_i localId hcurrent
    exact .inl ⟨localId, hcurrent, rfl⟩
  · rename_i hother
    refine .inr ⟨hother, ?_⟩
    rw [h.allocateLocalId]
    split <;> rfl

/-- Retiring an id changes what the server id of the invitation stands for, if that is the id. -/
theorem lookup_retireLocal (state : InviteIdState) (localId serverId : Int) :
    (state.retireLocal localId).serverToCurrent.lookup serverId =
      if state.localToServer.lookup localId = some serverId ∧ ∃ retired, state.serverToCurrent.lookup serverId = some (localId, retired) then
        some (localId, true)
      else state.serverToCurrent.lookup serverId := by
  unfold retireLocal
  split
  · rename_i hnone
    rw [if_neg (by simp [hnone])]
  · rename_i server hserver
    split
    · rename_i current retired hcurrent
      split
      · rename_i heq
        subst heq
        by_cases hs : server = serverId
        · subst hs
          rw [if_pos ⟨hserver, retired, hcurrent⟩]
          exact AList.lookup_insert _
        · rw [if_neg (fun hand => hs (Option.some.inj (hserver.symm.trans hand.1)))]
          exact AList.lookup_insert_ne (Ne.symm hs)
      · rename_i hne
        rw [if_neg]
        rintro ⟨hs, r, hr⟩
        obtain rfl := Option.some.inj (hserver.symm.trans hs)
        exact hne (congrArg Prod.fst (Option.some.inj (hcurrent.symm.trans hr)))
    · rename_i hnone
      rw [if_neg]
      rintro ⟨hs, r, hr⟩
      obtain rfl := Option.some.inj (hserver.symm.trans hs)
      rw [hnone] at hr
      nomatch hr

/-- Retiring an id leaves what ids resolve to, and which are taken. -/
theorem retireLocal_localToServer (state : InviteIdState) (localId : Int) :
    (state.retireLocal localId).localToServer = state.localToServer ∧ (state.retireLocal localId).nextLocalId = state.nextLocalId := by
  unfold retireLocal
  split
  · exact ⟨rfl, rfl⟩
  · split
    · split <;> exact ⟨rfl, rfl⟩
    · exact ⟨rfl, rfl⟩

theorem Allocated.retireLocal {state : InviteIdState} {lowest : Int} (h : state.Allocated lowest) (localId : Int) :
    (state.retireLocal localId).Allocated lowest := by
  obtain ⟨hmap, hnext⟩ := state.retireLocal_localToServer localId
  exact ⟨h.lower, h.upper, hnext.trans h.next, fun id => by rw [hmap]; exact h.taken id⟩

end InviteIdState

end Scbl.Hooks
