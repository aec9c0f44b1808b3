import Scbl.Theorems.Reassembly

/-!
# Cutting and reassembling are inverse

A receiver that gets every packet of a message, the final one last, delivers the message: `Collecting` follows the pieces got so
far from the first arrival on, and the final packet completes them (`collected_whole`). For the packets of a response this is
`response_reassembled`.

A message of one packet has no group of its own; it is delivered only when no fragments of another message are cached.
-/

namespace Scbl.Prudp

open Scbl.Lib

variable {T : Type}

namespace RoundTrip

variable {M : Message}

/-! ## The bytes of the pieces -/

/-- The pieces of a message and its last chunk have together at most the length of the message. -/
theorem holds_bytes_le {ci : ClientInfo T} (h : Holds M ci) {last : Bytes} (hlast : chunkAt M.chunks 0 = some last) :
    ci.packetFragmentBytes + last.length ≤ M.payload.length := by
  have hlt : ∀ i ∈ ci.packetFragments, i.toNat < M.chunks.length := by
    intro i hi
    obtain ⟨q, hq⟩ := Option.isSome_iff_exists.mp (AList.lookup_isSome.mpr hi)
    exact (chunkAt_isSome_iff M.chunks i.toNat).mp (by rw [h.pieces i q hq]; rfl)
  have hids : (0 :: ci.packetFragments.keys.map UInt8.toNat).Nodup := by
    refine List.nodup_cons.mpr ⟨fun h0 => ?_, nodup_keys_toNat _⟩
    obtain ⟨i, hi, h0⟩ := List.mem_map.mp h0
    exact h.wf.pos i (AList.mem_keys.mpr hi) (UInt8.toNat_inj.mp h0)
  have hb : ∀ i ∈ 0 :: ci.packetFragments.keys.map UInt8.toNat, i < M.chunks.length := by
    intro i hi
    rcases List.mem_cons.mp hi with rfl | hi
    · exact M.length_pos
    · obtain ⟨j, hj, rfl⟩ := List.mem_map.mp hi
      exact hlt j (AList.mem_keys.mpr hj)
  have hsum := sum_map_le_range hids hb (fun i => ((chunkAt M.chunks i).getD []).length)
  rw [sum_length_chunkAt, List.map_cons, List.sum_cons, hlast, Option.getD_some, List.map_map] at hsum
  have hpieces : ci.packetFragments.entries.map (fun e => e.2.length) =
      ci.packetFragments.keys.map ((fun i => ((chunkAt M.chunks i).getD []).length) ∘ UInt8.toNat) := by
    rw [AList.keys, List.keys, List.map_map]
    refine List.map_congr_left (fun e he => ?_)
    have hl : ci.packetFragments.lookup e.1 = some e.2 := AList.mem_lookup_iff.mpr he
    simp only [Function.comp_apply, h.pieces _ _ hl, Option.getD_some]
  rw [h.wf.bytes, Fragments.bytes, hpieces, Nat.add_comm]
  exact hsum

/-! ## Collecting the pieces -/

/-- A group of the message open since an instant, with the pieces got so far. -/
structure Collecting (M : Message) (started : Instant) (got : Nat → Prop) (ci : ClientInfo T) : Prop where
  holds : Holds M ci
  final : ci.packetFragmentFinalSequence = some M.finalSequence
  started : ci.packetFragmentStartedAt = some started
  got : ∀ k, got k → k + 1 < M.chunks.length → UInt8.ofNat (M.chunks.length - 1 - k) ∈ ci.packetFragments

/-- Within the timeout nothing expires. -/
theorem Collecting.expire {ci : ClientInfo T} {started : Instant} {got : Nat → Prop} (h : Collecting M started got ci)
    {now : Instant} (hnow : now - started ≤ fragmentAssemblyTimeout) : expireFragmentState now ci = ci := by
  have : fragmentsExpired now ci = false := by
    rw [fragmentsExpired, h.started, Option.any_some, decide_eq_false_iff_not]
    exact Nat.not_lt.mpr hnow
  rw [expireFragmentState, this]
  rfl

/-- A piece that joins the group of its message within the limit is kept or known there. -/
theorem collecting_of_joined {ci : ClientInfo T} (now : Instant) {k : Nat} {p : QPacket} (hp : M.IsPacket k p)
    (hk : k + 1 < M.chunks.length) (hlen : M.payload.length ≤ maxInboundMessageBytes) {started : Instant}
    {got : Nat → Prop}
    (hj : Collecting M started got (joinedGroup now ci (UInt8.ofNat (M.chunks.length - 1 - k)) p.sequence)) :
    Collecting M started (fun j => j = k ∨ got j) (receivePayload now ci p).1 := by
  have hfid : UInt8.ofNat (M.chunks.length - 1 - k) ≠ 0 :=
    mt (Message.fragmentId_eq_zero_iff hp.lt).mp (by omega)
  have hpiece : ∀ q, (joinedGroup now ci (UInt8.ofNat (M.chunks.length - 1 - k)) p.sequence).packetFragments.lookup
      (UInt8.ofNat (M.chunks.length - 1 - k)) = some q → q = p.payload := by
    intro q hq
    have := hj.holds.pieces _ _ hq
    rw [M.toNat_fragmentId k, hp.chunkAt, Option.some.injEq] at this
    exact this.symm
  rcases receivePayload_fragment now ci hp.fragmentId hfid with ⟨hn, _, he⟩ | ⟨hl, he⟩ | ⟨⟨q, hq, hl⟩ | ⟨hn, hb⟩, he⟩
  · rw [he]
    refine ⟨hj.holds.keep hj.final hp hfid hn, hj.final, hj.started, fun j hgot hlt => (AList.mem_insert _).mpr ?_⟩
    rcases hgot with rfl | hgot
    · exact Or.inl rfl
    · exact Or.inr (hj.got j hgot hlt)
  · rw [he]
    refine ⟨hj.holds, hj.final, hj.started, fun j hgot hlt => ?_⟩
    rcases hgot with rfl | hgot
    · exact AList.lookup_isSome.mp (by rw [hl]; rfl)
    · exact hj.got j hgot hlt
  · exact absurd (hpiece q hl) hq
  · obtain ⟨last, hlast⟩ := Option.isSome_iff_exists.mp ((chunkAt_isSome_iff M.chunks 0).mpr M.length_pos)
    have := holds_bytes_le (hj.holds.keep hj.final hp hfid hn) hlast
    simp only [keepFragment] at this
    omega

/-- The first piece of a message to arrive opens its group. -/
theorem collecting_first {ci : ClientInfo T} (now : Instant) (hfin : ci.packetFragmentFinalSequence ≠ some M.finalSequence)
    {k : Nat} {p : QPacket} (hp : M.IsPacket k p) (hk : k + 1 < M.chunks.length)
    (hlen : M.payload.length ≤ maxInboundMessageBytes) :
    Collecting M now (fun j => j = k) (receivePayload now ci p).1 := by
  have hfin' : (expireFragmentState now ci).packetFragmentFinalSequence ≠ some M.finalSequence := by
    rcases expireFragmentState_cases now ci with he | he
    · rw [he]; exact nofun
    · rwa [he]
  have hjoin : joinedGroup now ci (UInt8.ofNat (M.chunks.length - 1 - k)) p.sequence =
      { resetFragmentState (expireFragmentState now ci) with
        packetFragmentFinalSequence := some M.finalSequence
        packetFragmentStartedAt := some now } := by
    rw [joinedGroup, hp.sequence_add, openFragmentGroup, if_pos hfin']
  have hj : Collecting M now (fun _ => False) (joinedGroup now ci (UInt8.ofNat (M.chunks.length - 1 - k)) p.sequence) := by
    rw [hjoin]
    exact ⟨Holds.of_empty rfl rfl, rfl, rfl, fun j hgot => hgot.elim⟩
  have := collecting_of_joined now hp hk hlen hj
  exact ⟨this.holds, this.final, this.started, fun j hgot => this.got j (Or.inl hgot)⟩

/-- A further piece joins the group. -/
theorem Collecting.receive {ci : ClientInfo T} {started : Instant} {got : Nat → Prop} (h : Collecting M started got ci)
    {now : Instant} (hnow : now - started ≤ fragmentAssemblyTimeout) {k : Nat} {p : QPacket} (hp : M.IsPacket k p)
    (hk : k + 1 < M.chunks.length) (hlen : M.payload.length ≤ maxInboundMessageBytes) :
    Collecting M started (fun j => j = k ∨ got j) (receivePayload now ci p).1 := by
  have hjoin : joinedGroup now ci (UInt8.ofNat (M.chunks.length - 1 - k)) p.sequence = ci := by
    rw [joinedGroup, hp.sequence_add, h.expire hnow, openFragmentGroup, if_neg (not_not.mpr h.final)]
  exact collecting_of_joined now hp hk hlen (by rwa [hjoin])

/-- The pieces that arrive within the timeout all join the group. -/
theorem Collecting.run {ci : ClientInfo T} {started : Instant} {got : Nat → Prop} (h : Collecting M started got ci)
    {arrivals : List (Instant × QPacket)} (hp : ∀ a ∈ arrivals, ∃ k, k + 1 < M.chunks.length ∧ M.IsPacket k a.2)
    (htime : ∀ a ∈ arrivals, a.1 - started ≤ fragmentAssemblyTimeout)
    (hlen : M.payload.length ≤ maxInboundMessageBytes) :
    Collecting M started (fun k => got k ∨ ∃ a ∈ arrivals, M.IsPacket k a.2) (Lib.run receiveStep ci arrivals) := by
  induction arrivals generalizing ci got with
  | nil => exact ⟨h.holds, h.final, h.started, fun k hk => h.got k (hk.resolve_right fun ⟨a, ha, _⟩ => nomatch ha)⟩
  | cons a as ih =>
    obtain ⟨k, hk, hpk⟩ := hp a List.mem_cons_self
    have h1 := h.receive (htime a List.mem_cons_self) hpk hk hlen
    have h2 := ih h1 (fun b hb => hp b (List.mem_cons_of_mem a hb)) (fun b hb => htime b (List.mem_cons_of_mem a hb))
    refine ⟨h2.holds, h2.final, h2.started, fun j hj => h2.got j ?_⟩
    rcases hj with hj | ⟨b, hb, hbj⟩
    · exact Or.inl (Or.inr hj)
    · rcases List.mem_cons.mp hb with rfl | hb
      · exact Or.inl (Or.inl (hbj.unique hpk))
      · exact Or.inr ⟨b, hb, hbj⟩

/-- The final packet completes a group that has all the other pieces. -/
theorem Collecting.finish {ci : ClientInfo T} {started : Instant} {got : Nat → Prop} (h : Collecting M started got ci)
    (hgot : ∀ k, k + 1 < M.chunks.length → got k) {now : Instant} (hnow : now - started ≤ fragmentAssemblyTimeout)
    {last : QPacket} (hp : M.IsPacket (M.chunks.length - 1) last) (hlen : M.payload.length ≤ maxInboundMessageBytes) :
    (receivePayload now ci last).2 = some M.payload := by
  have hf : last.fragmentId = some 0 := by rw [hp.fragmentId, Nat.sub_self]; rfl
  have hpos := M.length_pos
  have hmax := M.length_le
  have hexact : CachesExactly ci (M.chunks.length - 1) := by
    intro i
    constructor
    · intro hi
      obtain ⟨q, hq⟩ := Option.isSome_iff_exists.mp (AList.lookup_isSome.mpr hi)
      have hlt := (chunkAt_isSome_iff M.chunks i.toNat).mp (by rw [h.holds.pieces i q hq]; rfl)
      have h0 : i.toNat ≠ 0 := fun h0 => h.holds.wf.pos i hi (UInt8.toNat_inj.mp h0)
      omega
    · rintro ⟨h1, h2⟩
      have hm := h.got (M.chunks.length - 1 - i.toNat) (hgot _ (by omega)) (by omega)
      rwa [show M.chunks.length - 1 - (M.chunks.length - 1 - i.toNat) = i.toNat by omega, UInt8.ofNat_toNat] at hm
  have hlast : chunkAt M.chunks 0 = some last.payload := by
    have := hp.chunkAt
    rwa [Nat.sub_self] at this
  have hcomp : Completes (expireFragmentState now ci) last.sequence last.payload (M.chunks.length - 1) := by
    rw [h.expire hnow]
    exact ⟨by omega, hexact, Or.inr (by rw [h.final, hp.sequence]; rfl), (holds_bytes_le h.holds hlast).trans hlen⟩
  rcases receivePayload_final now h.holds.wf hf with ⟨n, joined, hc, hg, ho, _⟩ | ⟨hno, _, _⟩
  · rw [ho, (h.holds.expire now).gather_tail hp rfl hc hg,
      Reassembly.cachesExactly_unique hc.exactly hcomp.exactly hc.lt hcomp.lt, Reassembly.tail_eq_payload (by omega)]
  · exact absurd hcomp (hno _)

/-- All the packets of a message of several, the final one last and all within the timeout, deliver it. -/
theorem collected_whole {ci : ClientInfo T} (hfin : ci.packetFragmentFinalSequence ≠ some M.finalSequence)
    (hlen : M.payload.length ≤ maxInboundMessageBytes) (hmany : 1 < M.chunks.length) {arrivals : List (Instant × QPacket)}
    (hp : ∀ a ∈ arrivals, ∃ k, k + 1 < M.chunks.length ∧ M.IsPacket k a.2)
    (hall : ∀ k, k + 1 < M.chunks.length → ∃ a ∈ arrivals, M.IsPacket k a.2) {now : Instant}
    (htime : ∀ a ∈ arrivals, now - a.1 ≤ fragmentAssemblyTimeout ∧ ∀ b ∈ arrivals, b.1 - a.1 ≤ fragmentAssemblyTimeout)
    {last : QPacket} (hlast : M.IsPacket (M.chunks.length - 1) last) :
    (receivePayload now (Lib.run receiveStep ci arrivals) last).2 = some M.payload ∧
      FragmentsWf (Lib.run receiveStep ci arrivals) := by
  cases arrivals with
  | nil =>
    obtain ⟨a, ha, _⟩ := hall 0 (by omega)
    nomatch ha
  | cons a as =>
    obtain ⟨k, hk, hpk⟩ := hp a List.mem_cons_self
    obtain ⟨hnow, hwithin⟩ := htime a List.mem_cons_self
    have h1 := collecting_first a.1 hfin hpk hk hlen
    have h2 := h1.run (fun b hb => hp b (List.mem_cons_of_mem a hb)) (fun b hb => hwithin b (List.mem_cons_of_mem a hb)) hlen
    refine ⟨h2.finish (fun j hj => ?_) hnow hlast hlen, h2.holds.wf⟩
    obtain ⟨b, hb, hbj⟩ := hall j hj
    rcases List.mem_cons.mp hb with rfl | hb
    · exact Or.inl (hbj.unique hpk)
    · exact Or.inr ⟨b, hb, hbj⟩

/-- The only packet of a message is delivered when nothing is cached. -/
theorem single_whole {ci : ClientInfo T} (hwf : FragmentsWf ci) {now : Instant}
    (hempty : (expireFragmentState now ci).packetFragments = ∅) (hlen : M.payload.length ≤ maxInboundMessageBytes)
    (hone : M.chunks.length = 1) {last : QPacket} (hlast : M.IsPacket (M.chunks.length - 1) last) :
    (receivePayload now ci last).2 = some M.payload := by
  have hf : last.fragmentId = some 0 := by rw [hlast.fragmentId, Nat.sub_self]; rfl
  have hpay : M.payload = last.payload := by
    obtain ⟨c, hc⟩ := List.length_eq_one_iff.mp hone
    have := hlast.payload
    rw [hc] at this
    simp only [List.length_singleton, Nat.sub_self, List.getElem?_cons_zero, Option.some.injEq] at this
    rw [Message.payload, hc, this]
    simp
  have hb0 : (expireFragmentState now ci).packetFragmentBytes = 0 := by rw [(hwf.expire now).bytes, hempty]; rfl
  have hcomp : Completes (expireFragmentState now ci) last.sequence last.payload 0 :=
    ⟨by omega, (cachesExactly_zero_iff _).mpr hempty, Or.inl rfl, by rw [hb0, Nat.zero_add, ← hpay]; exact hlen⟩
  rcases receivePayload_final now hwf hf with ⟨n, joined, hc, hg, ho, _⟩ | ⟨hno, _, _⟩
  · have hn := Reassembly.cachesExactly_unique hc.exactly hcomp.exactly hc.lt hcomp.lt
    subst hn
    rw [gather, Option.some.injEq] at hg
    rw [ho, ← hg, List.nil_append, hpay]
  · exact absurd hcomp (hno 0)

end RoundTrip

open RoundTrip

/-- A response cut into packets by a release build is delivered whole when its packets arrive within the timeout, the final one
last and the others in any order and any number of times, at a connection with another group or none; a response of one packet
needs a connection with no unexpired fragments. The cache is empty afterwards. -/
theorem response_reassembled {S : Type} (sender : ClientInfo S) (request : QPacket) (data : Bytes) (hne : data ≠ [])
    (hlen : data.length ≤ 256000) :
    ∃ packets sender' last, responsePackets .release request sender (cutPayload data) = .ok (packets ++ [last], sender') ∧
      ∀ (ci : ClientInfo T) (arrivals : List (Instant × QPacket)) (now : Instant), FragmentsWf ci →
        ci.packetFragmentFinalSequence ≠ some last.sequence →
        (packets = [] → (expireFragmentState now ci).packetFragments = ∅) →
        (∀ a ∈ arrivals, a.2 ∈ packets) → (∀ p ∈ packets, ∃ a ∈ arrivals, a.2 = p) →
        (∀ a ∈ arrivals, now - a.1 ≤ fragmentAssemblyTimeout ∧
          ∀ b ∈ arrivals, b.1 - a.1 ≤ fragmentAssemblyTimeout) →
        (receivePayload now (run receiveStep ci arrivals) last).2 = some data ∧
          (receivePayload now (run receiveStep ci arrivals) last).1.packetFragments = ∅ ∧
          (receivePayload now (run receiveStep ci arrivals) last).1.packetFragmentBytes = 0 := by
  obtain ⟨all, sender', he, hl, hp⟩ := isPacket_responsePackets request sender data hne hlen
  generalize hM : Message.ofPayload data sender.serverSequenceId hne hlen = M at hp
  have hpay : M.payload = data := by rw [← hM, Message.payload_ofPayload]
  have hmax : M.payload.length ≤ maxInboundMessageBytes := by rw [hpay, maxInboundMessageBytes]; omega
  have hl' : all.length = M.chunks.length := by rw [hl, ← hM]; rfl
  have hall : all ≠ [] := List.length_pos_iff.mp (hl' ▸ M.length_pos)
  obtain ⟨packets, last, rfl⟩ := List.eq_nil_or_concat' all |>.resolve_left hall
  rw [List.length_append, List.length_singleton] at hl'
  have hlast : M.IsPacket (M.chunks.length - 1) last := hp _ _ (by rw [← hl', Nat.add_sub_cancel]; simp)
  have hpk : ∀ k p, packets[k]? = some p → k + 1 < M.chunks.length ∧ M.IsPacket k p := by
    intro k p hk
    have hlt := (List.getElem?_eq_some_iff.mp hk).1
    exact ⟨by omega, hp k p (by rw [List.getElem?_append_left hlt, hk])⟩
  refine ⟨packets, sender', last, he, fun ci arrivals now hwf hfin hone hin hgot htime => ?_⟩
  have hfid : last.fragmentId = some 0 := by rw [hlast.fragmentId, Nat.sub_self]; rfl
  have hseq : last.sequence = M.finalSequence := hlast.sequence
  rw [hseq] at hfin
  rw [← hpay]
  by_cases hnil : packets = []
  · subst hnil
    have harr : arrivals = [] := List.eq_nil_iff_forall_not_mem.mpr (fun a ha => nomatch hin a ha)
    subst harr
    exact ⟨single_whole hwf (hone rfl) hmax (by rw [← hl']; rfl) hlast, receivePayload_final_empty now hwf hfid⟩
  · have hmany : 1 < M.chunks.length := by
      have := List.length_pos_iff.mpr hnil
      omega
    obtain ⟨ho, hwf'⟩ := collected_whole hfin hmax hmany (fun a ha => by
        obtain ⟨k, hk⟩ := List.getElem?_of_mem (hin a ha)
        exact ⟨k, hpk k _ hk⟩) (fun k hk => by
        have hlt : k < packets.length := by omega
        obtain ⟨a, ha, hap⟩ := hgot _ (List.getElem_mem hlt)
        exact ⟨a, ha, (hpk k a.2 (by rw [hap, List.getElem?_eq_getElem hlt])).2⟩) htime hlast
    exact ⟨ho, receivePayload_final_empty now hwf' hfid⟩

/-- A response of 2500 bytes whose first two packets arrive in the wrong order. -/
theorem response_reassembled_2500 :
    ∃ packets sender' last,
      responsePackets .release {} Reassembly.idleClient (cutPayload (List.replicate 2500 7)) =
        .ok (packets ++ [last], sender') ∧
      (receivePayload 1 (run receiveStep Reassembly.idleClient (packets.reverse.map (fun p => (0, p)))) last).2 =
        some (List.replicate 2500 7) := by
  obtain ⟨packets, sender', last, he, hr⟩ :=
    @response_reassembled Unit Unit Reassembly.idleClient {} (List.replicate 2500 7)
      (List.ne_nil_of_length_pos (by rw [List.length_replicate]; decide)) (by rw [List.length_replicate]; decide)
  refine ⟨packets, sender', last, he, (hr Reassembly.idleClient _ 1 ⟨rfl, nofun⟩ nofun (fun _ => rfl) ?_ ?_ ?_).1⟩
  · intro a ha
    obtain ⟨p, hp, rfl⟩ := List.mem_map.mp ha
    exact List.mem_reverse.mp hp
  · exact fun p hp => ⟨(0, p), List.mem_map.mpr ⟨p, List.mem_reverse.mpr hp, rfl⟩, rfl⟩
  · intro a ha
    obtain ⟨p, _, rfl⟩ := List.mem_map.mp ha
    refine ⟨show 1 - 0 ≤ fragmentAssemblyTimeout by decide, fun b hb => ?_⟩
    obtain ⟨q, _, rfl⟩ := List.mem_map.mp hb
    exact Nat.zero_le _

namespace RoundTrip

/-- A connection with a fragment of a message whose other packets have not arrived. -/
def staleClient : ClientInfo Unit := (cacheFragment 0 Reassembly.idleClient 1 100 [9]).1

/-- The packet of a response of one byte. -/
def oneBytePacket : QPacket :=
  { packetType := .data, fragmentId := some 0, sequence := 1, payload := [7], flags := { bits := 0b1110 } }

end RoundTrip

/-- A response of one packet is refused at a connection with a group of another final sequence. -/
theorem response_reassembled_false :
    Prod.fst <$> responsePackets .release {} Reassembly.idleClient (cutPayload [7]) = .ok [oneBytePacket] ∧
      staleClient.packetFragmentFinalSequence = some 101 ∧
      (finishFragmentedPayload 0 staleClient oneBytePacket.sequence oneBytePacket.payload).2 = .error .sequenceMismatch := by
  decide

end Scbl.Prudp
