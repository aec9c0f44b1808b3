import Scbl.ControlPlane.GameSessions
import Scbl.Lib.Run

/-!
# The clients that are present

`RuntimeState` of `scbl_control_plane.py`: the dictionary of the clients by their overlay address. A heartbeat sets the entry of its address,
and takes out the entries at other addresses that carry its instance id; an entry whose heartbeat is too old is dropped at the next call.
The handler has checked the address of a heartbeat, so that an entry carries the check of its own address.
-/

namespace Scbl.ControlPlane

open Scbl.Lib

/-- A string of Python: its code points, which may be surrogates. -/
abbrev Str := List Nat

/-- The address of a client in the overlay. -/
structure OverlayIp where
  text : Text
  isClient : isClientOverlayIp text = true
  deriving DecidableEq

namespace Presence

/-- `ClientState`, with all that a heartbeat tells. -/
structure ClientState where
  username : Str
  virtualIp : OverlayIp
  instanceId : Str
  clientVersion : Str
  easytierVersion : Str
  gameRunning : Bool
  gameRole : Str
  gamePeerIp : Str
  serverLatencyMs : Option Int
  serverTransport : Str
  serverAddressFamily : Str
  gameLatencyMs : Option Int
  gameTransport : Str
  gameAddressFamily : Str
  nextHop : Str
  hopCount : Option Int
  gameLatencyP50Ms : Option Int
  gameLatencyP95Ms : Option Int
  gameJitterMs : Option Int
  gameLossPercent : Option Rat
  lastSeenMs : Int
  deriving DecidableEq

/-- The clients by their address. -/
abbrev RuntimeState := List (OverlayIp × ClientState)

/-- An entry that a cleanup leaves. -/
def isFresh (ttlSeconds : Nat) (now : Int) (state : ClientState) : Bool :=
  let cutoff := now - ttlSeconds * 1000
  !(state.lastSeenMs < cutoff)

def cleanup (ttlSeconds : Nat) (now : Int) (clients : RuntimeState) : RuntimeState :=
  clients.filter (fun item => isFresh ttlSeconds now item.2)

/-- Whether a heartbeat takes out an entry at another address. -/
def evicts (state existing : ClientState) : Bool := state.instanceId ≠ [] && existing.instanceId = state.instanceId

def upsert (ttlSeconds : Nat) (now : Int) (clients : RuntimeState) (state : ClientState) : RuntimeState :=
  let clients := cleanup ttlSeconds now clients
  let clients := clients.filter (fun item => !(item.1 ≠ state.virtualIp && evicts state item.2))
  Dict.set clients state.virtualIp state

/-- The clients that are left, and their list. -/
def activeClients (ttlSeconds : Nat) (now : Int) (clients : RuntimeState) : RuntimeState × List ClientState :=
  let clients := cleanup ttlSeconds now clients
  (clients, (clients.map Prod.snd).insertionSort (fun a b => lastOctet a.virtualIp.text ≤ lastOctet b.virtualIp.text))

/-! ## Calls in the course of time -/

inductive Call where
  | upsert (state : ClientState)
  | cleanup
  | activeClients

/-- A call and its time. -/
structure TimedCall where
  now : Int
  call : Call

/-- What a call leaves, and the clients that it returns. -/
def step (ttlSeconds : Nat) (clients : RuntimeState) (c : TimedCall) : RuntimeState × List ClientState :=
  match c.call with
  | .upsert state => (upsert ttlSeconds c.now clients state, [])
  | .cleanup => (cleanup ttlSeconds c.now clients, [])
  | .activeClients => activeClients ttlSeconds c.now clients

/-! ## What the calls do -/

theorem isFresh_iff {ttlSeconds : Nat} {now : Int} {state : ClientState} :
    isFresh ttlSeconds now state = true ↔ now - ttlSeconds * 1000 ≤ state.lastSeenMs := by
  simp [isFresh]

theorem evicts_iff {state existing : ClientState} :
    evicts state existing = true ↔ state.instanceId ≠ [] ∧ existing.instanceId = state.instanceId := by
  simp [evicts]

/-- A state as it is kept: one entry for an address, at its own address. -/
structure Keyed (clients : RuntimeState) : Prop where
  nodup : (clients.map Prod.fst).Nodup
  ownAddress : ∀ item ∈ clients, item.2.virtualIp = item.1

theorem keyed_nil : Keyed [] := ⟨List.nodup_nil, fun _ h => nomatch h⟩

theorem Keyed.filter {clients : RuntimeState} (h : Keyed clients) (p : OverlayIp × ClientState → Bool) : Keyed (clients.filter p) :=
  ⟨h.nodup.sublist (List.filter_sublist.map _), fun item hitem => h.ownAddress item (List.mem_filter.mp hitem).1⟩

theorem Keyed.cleanup {clients : RuntimeState} (h : Keyed clients) (ttlSeconds : Nat) (now : Int) : Keyed (cleanup ttlSeconds now clients) :=
  h.filter _

theorem Keyed.upsert {clients : RuntimeState} (h : Keyed clients) (ttlSeconds : Nat) (now : Int) (state : ClientState) :
    Keyed (upsert ttlSeconds now clients state) := by
  have hkept := (h.cleanup ttlSeconds now).filter (fun item => !(item.1 ≠ state.virtualIp && evicts state item.2))
  refine ⟨Dict.nodup_set hkept.nodup, fun item hitem => ?_⟩
  rcases Dict.mem_set hitem with rfl | hold
  · rfl
  · exact hkept.ownAddress item hold

/-- One step keeps the entries at their addresses. -/
theorem Keyed.step {clients : RuntimeState} (h : Keyed clients) (ttlSeconds : Nat) (c : TimedCall) :
    Keyed (step ttlSeconds clients c).1 := by
  unfold Presence.step
  cases c.call with
  | upsert state => exact h.upsert ttlSeconds c.now state
  | cleanup => exact h.cleanup ttlSeconds c.now
  | activeClients => exact h.cleanup ttlSeconds c.now

/-- Entries are at their addresses: a state is kept if it is the one at its address. -/
theorem Keyed.mem_iff {clients : RuntimeState} (h : Keyed clients) {state : ClientState} :
    state ∈ clients.map Prod.snd ↔ Dict.get clients state.virtualIp = some state := by
  constructor
  · intro hmem
    obtain ⟨item, hitem, rfl⟩ := List.mem_map.mp hmem
    exact Dict.get_of_mem h.nodup (h.ownAddress item hitem ▸ hitem)
  · exact fun hget => List.mem_map.mpr ⟨_, Dict.mem_of_get hget, rfl⟩

theorem Keyed.virtualIp_eq {clients : RuntimeState} (h : Keyed clients) {ip : OverlayIp} {state : ClientState}
    (hget : Dict.get clients ip = some state) : state.virtualIp = ip :=
  h.ownAddress _ (Dict.mem_of_get hget)

/-- A cleanup leaves the entries that are fresh. -/
theorem get_cleanup {clients : RuntimeState} (h : Keyed clients) (ttlSeconds : Nat) (now : Int) (ip : OverlayIp) :
    Dict.get (cleanup ttlSeconds now clients) ip = (Dict.get clients ip).filter (isFresh ttlSeconds now) :=
  Dict.get_filter _ h.nodup ip

/-- A heartbeat is entered at its address. -/
theorem get_upsert_self (ttlSeconds : Nat) (now : Int) (clients : RuntimeState) (state : ClientState) :
    Dict.get (upsert ttlSeconds now clients state) state.virtualIp = some state :=
  Dict.get_set_self ..

/-- At every other address a heartbeat leaves the entry that is fresh and that it does not take out. -/
theorem get_upsert_other {clients : RuntimeState} (h : Keyed clients) (ttlSeconds : Nat) (now : Int) (state : ClientState) {ip : OverlayIp}
    (hne : ip ≠ state.virtualIp) :
    Dict.get (upsert ttlSeconds now clients state) ip =
      (Dict.get clients ip).filter (fun existing => isFresh ttlSeconds now existing && !evicts state existing) := by
  rw [upsert, Dict.get_set_other _ _ hne, Dict.get_filter _ (h.cleanup ttlSeconds now).nodup, get_cleanup h]
  cases Dict.get clients ip with
  | none => rfl
  | some existing =>
    cases hfresh : isFresh ttlSeconds now existing <;> simp [Option.filter, hfresh, hne]

end Presence

end Scbl.ControlPlane
