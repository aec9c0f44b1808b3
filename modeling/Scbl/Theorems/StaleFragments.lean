import Scbl.Lemmas.Receive

/-!
# A message of one packet and the fragments of others

A data packet with fragment id 0 that is the only packet of its message is delivered when no unexpired fragments of another
message are cached, and refused with `sequenceMismatch` when some are. A refused packet empties the cache, so the packet after
it is delivered. This holds in every state the fragment operations reach.
-/

namespace Scbl.Prudp

open Scbl.Lib

variable {T : Type}

/-- An operation on the fragment state of a connection. -/
inductive FragmentOp where
  | cache (now : Instant) (fragmentId : UInt8) (sequence : UInt16) (payload : Bytes)
  | finish (now : Instant) (sequence : UInt16) (payload : Bytes)
  | reset

/-- The connection after an operation. -/
def fragmentStep (ci : ClientInfo T) : FragmentOp → ClientInfo T × Unit
  | .cache now fid seq payload => ((cacheFragment now ci fid seq payload).1, ())
  | .finish now seq payload => ((finishFragmentedPayload now ci seq payload).1, ())
  | .reset => (resetFragmentState ci, ())

/-- An operation caches no fragment of the group of a final sequence. -/
def FragmentOp.SparesGroup (seq : UInt16) : FragmentOp → Prop
  | .cache _ fid s _ => fid ≠ 0 → s + fid.toUInt16 ≠ seq
  | .finish _ _ _ | .reset => True

namespace StaleFragments

/-- The cache is well-formed and holds no fragment of the group of a final sequence. -/
structure Spares (seq : UInt16) (ci : ClientInfo T) : Prop where
  wf : FragmentsWf ci
  other : ci.packetFragments ≠ ∅ → ci.packetFragmentFinalSequence ≠ some seq

/-- Expiring keeps the group out of the cache. -/
theorem Spares.expire {seq : UInt16} {ci : ClientInfo T} (h : Spares seq ci) (now : Instant) :
    Spares seq (expireFragmentState now ci) := by
  refine ⟨h.wf.expire now, ?_⟩
  rcases expireFragmentState_cases now ci with he | he
  · rw [he]; exact fun hne => absurd rfl hne
  · rw [he]; exact h.other

/-- Every operation that spares the group keeps it out of the cache. -/
theorem Spares.step {seq : UInt16} {ci : ClientInfo T} (h : Spares seq ci) {op : FragmentOp} (hop : op.SparesGroup seq) :
    Spares seq (fragmentStep ci op).1 := by
  cases op with
  | cache now fid s payload =>
    refine ⟨h.wf.cache now fid s payload, fun hne => ?_⟩
    by_cases hfid : fid = 0
    · rw [fragmentStep, cacheFragment_zero _ _ hfid] at hne ⊢
      exact (h.expire now).other hne
    · have hj : (joinedGroup now ci fid s).packetFragmentFinalSequence ≠ some seq := by
        rw [joinedGroup, openFragmentGroup_final, Ne, Option.some.injEq]
        exact hop hfid
      rw [fragmentStep]
      rcases cacheFragment_cases now ci hfid s payload with ⟨_, _, he⟩ | ⟨_, he⟩ | ⟨_, e, he⟩
      · rwa [he]
      · rwa [he]
      · rwa [he]
  | finish now s payload =>
    refine ⟨h.wf.finish now s payload, ?_⟩
    rw [fragmentStep]
    rcases finishFragmentedPayload_cases now h.wf s payload with ⟨n, joined, _, _, he⟩ | ⟨⟨e, he⟩, _⟩
    · rw [he]
      split
      · exact (h.expire now).other
      · exact fun hne => absurd rfl hne
    · rw [he]
      exact (h.expire now).other
  | reset => exact ⟨FragmentsWf.reset ci, fun hne => absurd rfl hne⟩

/-- In every state reached by operations that spare the group, the cache spares it. -/
theorem spares_run {seq : UInt16} {ops : List FragmentOp} (hops : ∀ op ∈ ops, op.SparesGroup seq) {ci : ClientInfo T}
    (h : Spares seq ci) : Spares seq (run fragmentStep ci ops) :=
  (trace_inv (fun _ op hop hs => hs.step (hops op hop)) h).2

/-- A connection that has received nothing caches nothing. -/
theorem spares_new [Inhabited T] (seq : UInt16) (now : Instant) (random : UInt32) (address : SocketAddr) :
    Spares seq (ClientInfo.new now random address : ClientInfo T) :=
  ⟨⟨rfl, fun i hi => absurd hi (AList.notMem_empty i)⟩, fun hne => absurd rfl hne⟩

end StaleFragments

open StaleFragments

/-- After any operations that cache no fragment of its own group, the only packet of a message yields its payload when no
unexpired fragment is cached and is refused for the mismatch of the sequences otherwise; once it was received, the next message
of one packet is delivered. -/
theorem single_packet_delivered [Inhabited T] (started : Instant) (random : UInt32) (address : SocketAddr)
    (ops : List FragmentOp) (now : Instant) (packet : QPacket) (hfinal : packet.fragmentId = some 0)
    (hops : ∀ op ∈ ops, op.SparesGroup packet.sequence) (hlen : packet.payload.length ≤ maxInboundMessageBytes) :
    let ci : ClientInfo T := run fragmentStep (ClientInfo.new started random address) ops
    (finishFragmentedPayload now ci packet.sequence packet.payload).2 =
        (if (expireFragmentState now ci).packetFragments.keys = [] then .ok packet.payload else .error .sequenceMismatch) ∧
      ∀ (later : Instant) (next : QPacket), next.fragmentId = some 0 → next.payload.length ≤ maxInboundMessageBytes →
        (receivePayload later (receivePayload now ci packet).1 next).2 = some next.payload := by
  intro ci
  have hci : Spares packet.sequence ci := spares_run hops (spares_new _ _ _ _)
  constructor
  · by_cases he : (expireFragmentState now ci).packetFragments = ∅
    · rw [finishFragmentedPayload_empty now he _ hlen, if_pos ((keys_eq_nil_iff _).mpr he)]
    · rw [finishFragmentedPayload_mismatch now he ((hci.expire now).other he) hlen,
        if_neg (mt (keys_eq_nil_iff _).mp he)]
  · intro later next hnext hnlen
    have hempty := expireFragmentState_empty (receivePayload_final_empty now hci.wf hfinal).1 later
    rw [receivePayload, hnext]
    simp only [ne_eq, not_true_eq_false, if_false, finishFragmentedPayload_empty later hempty _ hnlen]

namespace StaleFragments

/-- A message of two packets is received, and its first packet arrives once more. -/
def lateDuplicate : List FragmentOp := [.cache 0 1 100 [1], .finish 1 101 [2], .cache 2 1 100 [1]]

/-- The only packet of a message, with the sequence after those of the message of two packets. -/
def singlePacket : QPacket := { packetType := .data, fragmentId := some 0, sequence := 102, payload := [7] }

/-- The message of two packets is not the group of the single packet. -/
theorem lateDuplicate_spares : ∀ op ∈ lateDuplicate, op.SparesGroup singlePacket.sequence := by
  intro op hop
  simp only [lateDuplicate, List.mem_cons, List.not_mem_nil, or_false] at hop
  rcases hop with rfl | rfl | rfl
  · exact fun _ => by decide
  · trivial
  · exact fun _ => by decide

/-- The address of a client. -/
def clientAddress : SocketAddr := { ip := "127.0.0.1".toList, port := 3074 }

end StaleFragments

/-- The message of one packet that follows a late duplicate is delivered once the duplicate has expired. -/
theorem single_packet_after_expiry :
    (finishFragmentedPayload 10000000003 (run fragmentStep (ClientInfo.new 0 7 clientAddress : ClientInfo Unit) lateDuplicate)
      singlePacket.sequence singlePacket.payload).2 = .ok [7] := by
  rw [(single_packet_delivered 0 7 clientAddress lateDuplicate 10000000003 singlePacket rfl
    lateDuplicate_spares (by decide)).1]
  decide

/-- The message of one packet that follows a late duplicate is refused. -/
theorem single_packet_delivered_false :
    (∀ op ∈ lateDuplicate, op.SparesGroup singlePacket.sequence) ∧
      (finishFragmentedPayload 3 (run fragmentStep (ClientInfo.new 0 7 clientAddress : ClientInfo Unit) lateDuplicate)
        singlePacket.sequence singlePacket.payload).2 = .error .sequenceMismatch :=
  ⟨lateDuplicate_spares, by decide⟩

end Scbl.Prudp
