import Scbl.Lemmas.Receive

/-!
# Reassembly delivers whole messages or tails of them

The receiver infers that a group is complete from the highest fragment id it has seen. When the packets lost are the first ones
of a message, the group looks complete and the tail is delivered; the final packet alone is delivered as a message of its own.
`delivered_whole_iff` says that this is the only way: on the packets of one message, whatever is lost, delayed, reordered or
repeated, every delivery is the whole message exactly when no final packet arrives at such a group.
-/

namespace Scbl.Prudp

open Scbl.Lib

variable {T : Type}

/-- The final fragment `last` would complete a proper tail of the message: the cached ids are exactly `1, …, h`, the first
fragment of the message is not among them, and the tail is within the limit. -/
def Message.TailCached (M : Message) (ci : ClientInfo T) (last : Bytes) : Prop :=
  ∃ h, h + 1 < M.chunks.length ∧ CachesExactly ci h ∧ ci.packetFragmentBytes + last.length ≤ maxInboundMessageBytes

namespace Reassembly

variable {M : Message}

/-- Along any arrivals of packets of the message the cache holds pieces of the message. -/
theorem trace_holds {ci : ClientInfo T} (h0 : Holds M ci) {arrivals : List (Instant × QPacket)}
    (hp : ∀ a ∈ arrivals, ∃ k, M.IsPacket k a.2) {t : Transition (ClientInfo T) (Instant × QPacket) (Option Bytes)}
    (ht : t ∈ trace receiveStep ci arrivals) : Holds M t.before := by
  refine ((trace_inv (fun s a ha hs => ?_) h0).1 t ht).1
  obtain ⟨k, hk⟩ := hp a ha
  exact hs.receive a.1 hk

/-- The tail of the message from its first chunk on is the message. -/
theorem tail_eq_payload {h : Nat} (hh : M.chunks.length ≤ h + 1) :
    (M.chunks.drop (M.chunks.length - 1 - h)).flatten = M.payload := by
  rw [show M.chunks.length - 1 - h = 0 by omega, List.drop_zero, Message.payload]

/-- A later tail is not the message. -/
theorem tail_ne_payload {h : Nat} (hh : h + 1 < M.chunks.length) :
    (M.chunks.drop (M.chunks.length - 1 - h)).flatten ≠ M.payload :=
  flatten_drop_ne M.chunk_ne_nil (by omega) M.chunks_ne_nil

/-- The cached ids of the message determine the tail it would be completed to. -/
theorem cachesExactly_unique {ci : ClientInfo T} {h h' : Nat} (hc : CachesExactly ci h) (hc' : CachesExactly ci h')
    (hlt : h < 256) (hlt' : h' < 256) : h = h' := by
  by_contra hne
  rcases Nat.lt_or_gt_of_ne hne with hl | hl
  · have hto : (UInt8.ofNat h').toNat = h' := UInt8.toNat_ofNat_of_lt' hlt'
    have := (hc _).mp ((hc' (UInt8.ofNat h')).mpr (by rw [hto]; omega))
    omega
  · have hto : (UInt8.ofNat h).toNat = h := UInt8.toNat_ofNat_of_lt' hlt
    have := (hc' _).mp ((hc (UInt8.ofNat h)).mpr (by rw [hto]; omega))
    omega

/-- A final packet of the message that meets a group that looks complete brings a proper tail of the message. -/
theorem final_of_tailCached {ci : ClientInfo T} (h : Holds M ci) (now : Instant) {k : Nat} {p : QPacket}
    (hp : M.IsPacket k p) (hf : p.fragmentId = some 0) (ht : M.TailCached (expireFragmentState now ci) p.payload) :
    ∃ out, (receivePayload now ci p).2 = some out ∧ out ≠ M.payload := by
  have hk : k = M.chunks.length - 1 :=
    (Message.fragmentId_eq_zero_iff hp.lt).mp (Option.some.inj (hp.fragmentId.symm.trans hf))
  obtain ⟨n, hn, hc, hb⟩ := ht
  have hlen := M.length_le
  have he := h.expire now
  have hseq : p.sequence = M.finalSequence := by rw [hp.sequence, hk]; rfl
  have hcomp : Completes (expireFragmentState now ci) p.sequence p.payload n := by
    refine ⟨by omega, hc, ?_, hb⟩
    rcases he.final with hempty | hfin
    · exact Or.inl (cachesExactly_unique hc ((cachesExactly_zero_iff _).mpr hempty) (by omega) (by omega))
    · exact Or.inr (by rw [hfin, hseq])
  rcases receivePayload_final now h.wf hf with ⟨n', joined, hc', hg, ho, _⟩ | ⟨hno, _, _⟩
  · have : n' = n := cachesExactly_unique hc'.exactly hc hc'.lt hcomp.lt
    subst this
    refine ⟨_, ho, ?_⟩
    rw [he.gather_tail hp hk hc' hg]
    exact tail_ne_payload hn
  · exact absurd hcomp (hno n)

/-- A packet of the message that meets no such group brings nothing or the whole message. -/
theorem whole_of_not_tailCached {ci : ClientInfo T} (h : Holds M ci) (now : Instant) {k : Nat} {p : QPacket}
    (hp : M.IsPacket k p) (ht : p.fragmentId = some 0 → ¬ M.TailCached (expireFragmentState now ci) p.payload) {out : Bytes}
    (ho : (receivePayload now ci p).2 = some out) : out = M.payload := by
  by_cases hk : k = M.chunks.length - 1
  · have hf : p.fragmentId = some 0 := by rw [hp.fragmentId, (Message.fragmentId_eq_zero_iff hp.lt).mpr hk]
    rcases receivePayload_final now h.wf hf with ⟨n, joined, hc, hg, ho', _⟩ | ⟨_, ho', _⟩
    · have htail := (h.expire now).gather_tail hp hk hc hg
      rw [ho', Option.some.injEq] at ho
      rw [← ho, htail]
      refine tail_eq_payload (Nat.le_of_not_lt fun hlt => ht hf ⟨n, hlt, hc.exactly, hc.bytes⟩)
    · rw [ho'] at ho
      nomatch ho
  · rw [receivePayload_fragment_output now ci hp.fragmentId (mt (Message.fragmentId_eq_zero_iff hp.lt).mp hk)] at ho
    nomatch ho

end Reassembly

open Reassembly

/-- On any arrivals of the packets of a message at an empty cache, every delivery is the whole message exactly when no final
packet meets a cache that holds a proper tail of the message. -/
theorem delivered_whole_iff (M : Message) (ci : ClientInfo T) (hempty : ci.packetFragments = ∅)
    (hbytes : ci.packetFragmentBytes = 0) (arrivals : List (Instant × QPacket))
    (hp : ∀ a ∈ arrivals, ∃ k, M.IsPacket k a.2) :
    (∀ t ∈ trace receiveStep ci arrivals, ∀ out, t.output = some out → out = M.payload) ↔
      ∀ t ∈ trace receiveStep ci arrivals, t.input.2.fragmentId = some 0 →
        ¬ M.TailCached (expireFragmentState t.input.1 t.before) t.input.2.payload := by
  have h0 : Holds M ci := Holds.of_empty hempty hbytes
  constructor
  · intro hall t ht hf htail
    obtain ⟨hin, hstep⟩ := mem_trace ht
    obtain ⟨k, hk⟩ := hp _ hin
    obtain ⟨out, ho, hne⟩ := final_of_tailCached (trace_holds h0 hp ht) t.input.1 hk hf htail
    refine hne (hall t ht out ?_)
    rw [← ho, show receivePayload t.input.1 t.before t.input.2 = (t.after, t.output) from hstep]
  · intro hno t ht out ho
    obtain ⟨hin, hstep⟩ := mem_trace ht
    obtain ⟨k, hk⟩ := hp _ hin
    refine whole_of_not_tailCached (trace_holds h0 hp ht) t.input.1 hk (hno t ht) ?_
    rw [show receivePayload t.input.1 t.before t.input.2 = (t.after, t.output) from hstep, ho]

namespace Reassembly

/-- A message of three one-byte chunks. -/
def threeChunks : Message where
  chunks := [[1], [2], [3]]
  start := 65535
  chunks_ne_nil := by decide
  chunk_ne_nil := by decide
  length_le := by decide

/-- The `k`-th packet of the message of three chunks. -/
def threeChunksPacket (k : Nat) : QPacket :=
  { packetType := .data, fragmentId := some (UInt8.ofNat (2 - k)), sequence := 65535 + UInt16.ofNat k,
    payload := [UInt8.ofNat (k + 1)] }

/-- A connection that has received nothing. -/
def idleClient : ClientInfo Unit := ClientInfo.new 0 7 { ip := "127.0.0.1".toList, port := 3074 }

/-- The packets of the message of three chunks are its packets. -/
theorem threeChunks_isPacket : threeChunks.IsPacket 0 (threeChunksPacket 0) ∧ threeChunks.IsPacket 1 (threeChunksPacket 1) ∧
    threeChunks.IsPacket 2 (threeChunksPacket 2) :=
  ⟨⟨by decide, by decide, by decide⟩, ⟨by decide, by decide, by decide⟩, ⟨by decide, by decide, by decide⟩⟩

end Reassembly

/-- With the chunks of a message received out of order and one of them twice, only the whole message is delivered. -/
theorem delivered_whole_three_chunks :
    (trace receiveStep idleClient
        [(0, threeChunksPacket 1), (1, threeChunksPacket 0), (2, threeChunksPacket 1), (3, threeChunksPacket 2)]).all
      (fun t => decide (∀ out ∈ t.output, out = [1, 2, 3])) = true := by
  obtain ⟨h0, h1, h2⟩ := threeChunks_isPacket
  refine List.all_eq_true.mpr fun t ht => decide_eq_true fun out ho => ?_
  refine (delivered_whole_iff threeChunks idleClient rfl rfl _ ?_).mpr ?_ t ht out ho
  · simp only [List.mem_cons, List.not_mem_nil, or_false, forall_eq_or_imp, forall_eq]
    exact ⟨⟨1, h1⟩, ⟨0, h0⟩, ⟨1, h1⟩, ⟨2, h2⟩⟩
  · simp only [trace, List.mem_cons, List.not_mem_nil, or_false, forall_eq_or_imp, forall_eq]
    refine ⟨fun hf => absurd hf (by decide), fun hf => absurd hf (by decide), fun hf => absurd hf (by decide), fun _ hcompletes => ?_⟩
    obtain ⟨h, hh, hc, -⟩ := hcompletes
    have := (hc 2).mp (by decide)
    have : (2 : UInt8).toNat = 2 := rfl
    have : threeChunks.chunks.length = 3 := rfl
    omega

/-- When the first packet of a message is lost, the rest is delivered as if it were a message; when only the last arrives, it
is delivered alone. -/
theorem delivered_whole_false :
    threeChunks.IsPacket 1 (threeChunksPacket 1) ∧ threeChunks.IsPacket 2 (threeChunksPacket 2) ∧
      (trace receiveStep idleClient [(0, threeChunksPacket 1), (1, threeChunksPacket 2)]).map (fun t => t.output) =
        [none, some [2, 3]] ∧
      (trace receiveStep idleClient [(0, threeChunksPacket 2)]).map (fun t => t.output) = [some [3]] ∧
      threeChunks.payload = [1, 2, 3] :=
  ⟨threeChunks_isPacket.2.1, threeChunks_isPacket.2.2, by decide, by decide, by decide⟩

end Scbl.Prudp
