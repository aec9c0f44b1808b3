import Scbl.Theorems.StaleFragments

/-!
# The memory a connection keeps for fragments

Four operations change the fragments of a connection: keeping a fragment, completing a message, expiring a group and forgetting it.
After any calls of them, with any arguments and at any instants, the byte count is the bytes retained and within the limit of a
message, the cached ids are those of the protocol, and a group that is open has an instant at which it was opened.
-/

namespace Scbl.Prudp

open Scbl.Lib

variable {T : Type}

/-- A call that changes the fragments of a connection. -/
inductive FragmentCall where
  | operation (op : FragmentOp)
  | expire (now : Instant)

/-- The connection after a call. -/
def fragmentCallStep (ci : ClientInfo T) : FragmentCall → ClientInfo T × Unit
  | .operation op => fragmentStep ci op
  | .expire now => (expireFragmentState now ci, ())

namespace FragmentMemory

/-- The fragments are within their limit, and an open group has the instant at which it was opened. -/
structure Bounded (ci : ClientInfo T) : Prop where
  wf : FragmentsWf ci
  limit : ci.packetFragmentBytes ≤ maxInboundMessageBytes
  timed : ci.packetFragmentStartedAt.isSome = ci.packetFragmentFinalSequence.isSome
  opened : ci.packetFragments ≠ ∅ → ci.packetFragmentFinalSequence.isSome

/-- A connection that has forgotten its group. -/
theorem Bounded.reset (ci : ClientInfo T) : Bounded (resetFragmentState ci) where
  wf := FragmentsWf.reset ci
  limit := Nat.zero_le _
  timed := rfl
  opened hne := absurd rfl hne

/-- Expiring keeps the bounds. -/
theorem Bounded.expire {ci : ClientInfo T} (h : Bounded ci) (now : Instant) : Bounded (expireFragmentState now ci) := by
  rcases expireFragmentState_cases now ci with he | he
  · rw [he]
    exact Bounded.reset ci
  · rwa [he]

/-- A group that is opened has no bytes and its instant. -/
theorem Bounded.openGroup {ci : ClientInfo T} (h : Bounded ci) (now : Instant) (f : UInt16) :
    Bounded (openFragmentGroup now ci f) where
  wf := h.wf.openGroup now f
  limit := by
    rcases openFragmentGroup_cases now ci f with ⟨_, he⟩ | ⟨_, _, hb⟩
    · rw [he]
      exact h.limit
    · rw [hb]
      exact Nat.zero_le _
  timed := by
    unfold openFragmentGroup
    split
    · rfl
    · exact h.timed
  opened _ := by
    rw [openFragmentGroup_final]
    rfl

/-- A fragment that is kept in an open group. -/
theorem Bounded.keep {ci : ClientInfo T} (h : Bounded ci) {fid : UInt8} (hfid : fid ≠ 0) (hnew : fid ∉ ci.packetFragments)
    {p : Bytes} (hp : ci.packetFragmentBytes + p.length ≤ maxInboundMessageBytes) (hopen : ci.packetFragmentFinalSequence.isSome) :
    Bounded (keepFragment ci fid p) where
  wf := h.wf.keep hfid hnew p
  limit := hp
  timed := h.timed
  opened _ := hopen

/-- Keeping a fragment keeps the bounds, whether it is new, known or refused. -/
theorem Bounded.cache {ci : ClientInfo T} (h : Bounded ci) (now : Instant) (fid : UInt8) (seq : UInt16) (p : Bytes) :
    Bounded (cacheFragment now ci fid seq p).1 := by
  by_cases hfid : fid = 0
  · rw [cacheFragment_zero now ci hfid]
    exact h.expire now
  · have hj : Bounded (joinedGroup now ci fid seq) := (h.expire now).openGroup now _
    rcases cacheFragment_cases now ci hfid seq p with ⟨hnew, hp, he⟩ | ⟨_, he⟩ | ⟨_, e, he⟩
    · rw [he]
      refine hj.keep hfid hnew hp ?_
      rw [joinedGroup, openFragmentGroup_final]
      rfl
    · rwa [he]
    · rwa [he]

/-- Completing a message keeps the bounds, whether it is completed or refused. -/
theorem Bounded.finish {ci : ClientInfo T} (h : Bounded ci) (now : Instant) (seq : UInt16) (p : Bytes) :
    Bounded (finishFragmentedPayload now ci seq p).1 := by
  rcases finishFragmentedPayload_cases now h.wf seq p with ⟨k, joined, _, _, he⟩ | ⟨⟨e, he⟩, _⟩
  · rw [he]
    by_cases hk : k = 0
    · rw [if_pos hk]
      exact h.expire now
    · rw [if_neg hk]
      exact Bounded.reset _
  · rw [he]
    exact h.expire now

/-- Every call keeps the bounds. -/
theorem Bounded.step {ci : ClientInfo T} (h : Bounded ci) (call : FragmentCall) : Bounded (fragmentCallStep ci call).1 := by
  cases call with
  | operation op =>
    cases op with
    | cache now fid seq p => exact h.cache now fid seq p
    | finish now seq p => exact h.finish now seq p
    | reset => exact Bounded.reset ci
  | expire now => exact h.expire now

/-- The bounds hold after any calls. -/
theorem bounded_run {ci : ClientInfo T} (h : Bounded ci) (calls : List FragmentCall) : Bounded (run fragmentCallStep ci calls) :=
  (trace_inv (fun _ call _ hs => hs.step call) h).2

/-- A connection that has received nothing keeps nothing. -/
theorem bounded_new [Inhabited T] (now : Instant) (random : UInt32) (address : SocketAddr) :
    Bounded (ClientInfo.new now random address : ClientInfo T) :=
  Bounded.reset (ClientInfo.new now random address)

/-- The cached ids are those of the protocol. -/
theorem Bounded.ids {ci : ClientInfo T} (h : Bounded ci) {i : UInt8} (hi : i ∈ ci.packetFragments) : 1 ≤ i.toNat ∧ i.toNat ≤ 255 := by
  have hne : i.toNat ≠ 0 := fun h0 => h.wf.pos i hi (UInt8.toNat_inj.mp h0)
  have hlt := i.toNat_lt
  omega

end FragmentMemory

open FragmentMemory

/-- After any calls of the fragment operations the byte count is the bytes retained, at most those of a message, the cached ids are
between 1 and 255, and a group has a final sequence exactly when it has an instant of opening, as it does when it has fragments. -/
theorem fragment_memory_bounded [Inhabited T] (started : Instant) (random : UInt32) (address : SocketAddr)
    (calls : List FragmentCall) :
    let ci : ClientInfo T := run fragmentCallStep (ClientInfo.new started random address) calls
    ci.packetFragmentBytes = ci.packetFragments.bytes ∧ ci.packetFragmentBytes ≤ maxInboundMessageBytes ∧
      (∀ i ∈ ci.packetFragments, 1 ≤ i.toNat ∧ i.toNat ≤ 255) ∧
      (ci.packetFragmentStartedAt.isSome ↔ ci.packetFragmentFinalSequence.isSome) ∧
      (ci.packetFragments ≠ ∅ → ci.packetFragmentStartedAt.isSome ∧ ci.packetFragmentFinalSequence.isSome) := by
  intro ci
  have h : Bounded ci := bounded_run (bounded_new started random address) calls
  refine ⟨h.wf.bytes, h.limit, fun i hi => h.ids hi, by rw [h.timed], fun hne => ⟨?_, h.opened hne⟩⟩
  rw [h.timed]
  exact h.opened hne

end Scbl.Prudp
