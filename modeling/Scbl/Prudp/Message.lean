import Scbl.Prudp.Responses

/-!
# Messages as the sender cuts them

A `Message` is what a sender cuts into data packets: at most 256 chunks, none empty, and the sequence of the first. Its `k`-th
packet carries chunk `k` of `n`, the fragment id `n - 1 - k` and the sequence `start + k` modulo `2 ^ 16`. Every packet of a
message names the same final sequence, its own sequence plus its fragment id.

`Message.ofPayload` is the message of a response, and `responsePackets_release` says that a release build sends its packets.
-/

namespace Scbl.Prudp

open Scbl.Lib

/-- A message cut into chunks. -/
structure Message where
  chunks : List Bytes
  start : UInt16
  chunks_ne_nil : chunks ≠ []
  chunk_ne_nil : ∀ c ∈ chunks, c ≠ []
  length_le : chunks.length ≤ 256

namespace Message

/-- The bytes of the message. -/
def payload (M : Message) : Bytes := M.chunks.flatten

/-- The sequence of the last packet. -/
def finalSequence (M : Message) : UInt16 := M.start + UInt16.ofNat (M.chunks.length - 1)

/-- A packet is the `k`-th packet of the message. -/
structure IsPacket (M : Message) (k : Nat) (p : QPacket) : Prop where
  fragmentId : p.fragmentId = some (UInt8.ofNat (M.chunks.length - 1 - k))
  sequence : p.sequence = M.start + UInt16.ofNat k
  payload : M.chunks[k]? = some p.payload

variable {M : Message} {k : Nat} {p : QPacket}

/-- A message has a chunk. -/
theorem length_pos (M : Message) : 0 < M.chunks.length := List.length_pos_iff.mpr M.chunks_ne_nil

/-- The packets are numbered below the number of chunks. -/
theorem IsPacket.lt (h : M.IsPacket k p) : k < M.chunks.length := (List.getElem?_eq_some_iff.mp h.payload).1

/-- The fragment id of the `k`-th packet, as a number. -/
theorem toNat_fragmentId (M : Message) (k : Nat) :
    (UInt8.ofNat (M.chunks.length - 1 - k)).toNat = M.chunks.length - 1 - k := by
  have := M.length_le
  have := M.length_pos
  exact UInt8.toNat_ofNat_of_lt' (show _ < 256 by omega)

/-- A packet carries the chunk its fragment id numbers. -/
theorem IsPacket.chunkAt (h : M.IsPacket k p) : chunkAt M.chunks (M.chunks.length - 1 - k) = some p.payload := by
  have := h.lt
  rw [chunkAt_eq _ (by omega), show M.chunks.length - 1 - (M.chunks.length - 1 - k) = k by omega, h.payload]

/-- The sequence and the fragment id of the `k`-th packet add up to the final sequence. -/
theorem start_add (h : k < M.chunks.length) :
    M.start + UInt16.ofNat k + (UInt8.ofNat (M.chunks.length - 1 - k)).toUInt16 = M.finalSequence := by
  have hi : (UInt8.ofNat (M.chunks.length - 1 - k)).toUInt16 = UInt16.ofNat (M.chunks.length - 1 - k) := by
    rw [← UInt16.toNat_inj, UInt8.toNat_toUInt16, M.toNat_fragmentId k, UInt16.toNat_ofNat_of_lt']
    have := M.length_le
    exact show _ < 65536 by omega
  rw [hi, UInt16.add_assoc, ← UInt16.ofNat_add, finalSequence,
    show k + (M.chunks.length - 1 - k) = M.chunks.length - 1 by omega]

/-- The sequence and the fragment id of a packet add up to the final sequence. -/
theorem IsPacket.sequence_add (h : M.IsPacket k p) :
    p.sequence + (UInt8.ofNat (M.chunks.length - 1 - k)).toUInt16 = M.finalSequence := by
  rw [h.sequence, start_add h.lt]

/-- The final packet is the one with fragment id 0. -/
theorem fragmentId_eq_zero_iff (h : k < M.chunks.length) :
    UInt8.ofNat (M.chunks.length - 1 - k) = 0 ↔ k = M.chunks.length - 1 := by
  rw [← UInt8.toNat_inj, M.toNat_fragmentId k, UInt8.toNat_zero]
  omega

/-- A packet has one place in its message. -/
theorem IsPacket.unique {j : Nat} (h : M.IsPacket k p) (h' : M.IsPacket j p) : k = j := by
  have he := congrArg UInt8.toNat (Option.some.inj (h.fragmentId.symm.trans h'.fragmentId))
  rw [M.toNat_fragmentId, M.toNat_fragmentId] at he
  have := h.lt
  have := h'.lt
  omega

/-- The message of a response: its payload cut into chunks, numbered from a sequence. -/
def ofPayload (data : Bytes) (start : UInt16) (hne : data ≠ []) (hlen : data.length ≤ 256000) : Message where
  chunks := Lib.chunks maxPayloadSize data
  start
  chunks_ne_nil := Lib.chunks_ne_nil hne
  chunk_ne_nil := fun _ hc => ne_nil_of_mem_chunks (by decide) hc
  length_le := length_chunks_le (by rw [maxPayloadSize]; omega)

@[simp] theorem payload_ofPayload (data : Bytes) (start : UInt16) (hne : data ≠ []) (hlen : data.length ≤ 256000) :
    (ofPayload data start hne hlen).payload = data := flatten_chunks (by decide) data

end Message

/-! ## The packets a release build sends -/

variable {T : Type}

/-- A release build numbers a response from the connection's sequence on and never panics. -/
theorem responsePackets_release (request : QPacket) (ci : ClientInfo T) (cut : List (Nat × Bytes)) :
    ∃ packets ci', responsePackets .release request ci cut = .ok (packets, ci') ∧ packets.length = cut.length ∧
      ∀ k p, packets[k]? = some p → ∃ c, cut[k]? = some c ∧ p.fragmentId = some (UInt8.ofNat c.1) ∧ p.payload = c.2 ∧
        p.sequence = ci.serverSequenceId + UInt16.ofNat k := by
  induction cut generalizing ci with
  | nil => exact ⟨[], ci, rfl, rfl, fun k p h => by simp at h⟩
  | cons c rest ih =>
    obtain ⟨fid, chunk⟩ := c
    obtain ⟨packets, ci', he, hl, hp⟩ := ih { ci with serverSequenceId := ci.serverSequenceId + 1 }
    refine ⟨_, ci', by rw [responsePackets, stampResponse, Build.addU16]; simp only [bind, Except.bind, pure, Except.pure, he];
                       rfl, by rw [List.length_cons, List.length_cons, hl], fun k p h => ?_⟩
    cases k with
    | zero =>
      rw [List.getElem?_cons_zero, Option.some.injEq] at h
      subst h
      exact ⟨(fid, chunk), rfl, rfl, rfl, by simp⟩
    | succ k =>
      rw [List.getElem?_cons_succ] at h
      obtain ⟨c, hc, hf, hpay, hs⟩ := hp k p h
      refine ⟨c, by rwa [List.getElem?_cons_succ], hf, hpay, ?_⟩
      rw [hs, UInt16.add_assoc, UInt16.ofNat_add, UInt16.add_comm 1]
      rfl

/-- The chunks of a payload are numbered down to 0. -/
theorem getElem?_cutPayload (data : Bytes) {k : Nat} {c : Nat × Bytes} (h : (cutPayload data)[k]? = some c) :
    c.1 = (chunks maxPayloadSize data).length - 1 - k ∧ (chunks maxPayloadSize data)[k]? = some c.2 := by
  obtain ⟨h1, h2⟩ := List.getElem?_zip_eq_some.mp h
  refine ⟨?_, h2⟩
  have hk := (List.getElem?_eq_some_iff.mp h2).1
  rw [List.getElem?_reverse (by rwa [List.length_range]), List.length_range, List.getElem?_range (by omega)] at h1
  exact (Option.some.inj h1).symm

/-- The packets of a response sent by a release build are the packets of its message. -/
theorem isPacket_responsePackets (request : QPacket) (ci : ClientInfo T) (data : Bytes) (hne : data ≠ [])
    (hlen : data.length ≤ 256000) :
    ∃ packets ci', responsePackets .release request ci (cutPayload data) = .ok (packets, ci') ∧
      packets.length = (chunks maxPayloadSize data).length ∧
      ∀ k p, packets[k]? = some p → (Message.ofPayload data ci.serverSequenceId hne hlen).IsPacket k p := by
  obtain ⟨packets, ci', he, hl, hp⟩ := responsePackets_release request ci (cutPayload data)
  refine ⟨packets, ci', he, ?_, fun k p h => ?_⟩
  · rw [hl, cutPayload, List.length_zip, List.length_reverse, List.length_range, Nat.min_self]
  · obtain ⟨c, hc, hf, hpay, hs⟩ := hp k p h
    obtain ⟨hid, hchunk⟩ := getElem?_cutPayload data hc
    exact ⟨by rw [hf, hid]; rfl, hs, by rw [hpay]; exact hchunk⟩

end Scbl.Prudp
