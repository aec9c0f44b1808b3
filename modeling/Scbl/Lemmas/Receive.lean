import Scbl.Lemmas.Fragments
import Scbl.Prudp.Message
import Scbl.Lib.Run

/-!
# Receiving the packets of a message

`Holds M ci` says that the cache of a connection holds pieces of the message `M` and nothing else. A packet of `M` keeps it
(`Holds.receive`), and the final packet brings, when anything, the tail of `M` from its highest cached piece on
(`Holds.receive_final`).
-/

namespace Scbl.Prudp

open Scbl.Lib

variable {T : Type}

/-- One packet arriving at an instant. -/
def receiveStep (ci : ClientInfo T) (a : Instant × QPacket) : ClientInfo T × Option Bytes := receivePayload a.1 ci a.2

/-! ## Any packet -/

/-- A non-final fragment brings nothing. -/
theorem receivePayload_fragment_output (now : Instant) (ci : ClientInfo T) {p : QPacket} {fid : UInt8}
    (hp : p.fragmentId = some fid) (hfid : fid ≠ 0) : (receivePayload now ci p).2 = none := by
  unfold receivePayload
  rw [hp]
  simp only [if_pos hfid]
  split <;> rfl

/-- What a non-final fragment leaves: it joins its group as a new piece, or is known there, or empties the cache. -/
theorem receivePayload_fragment (now : Instant) (ci : ClientInfo T) {p : QPacket} {fid : UInt8}
    (hp : p.fragmentId = some fid) (hfid : fid ≠ 0) :
    (fid ∉ (joinedGroup now ci fid p.sequence).packetFragments ∧
        (joinedGroup now ci fid p.sequence).packetFragmentBytes + p.payload.length ≤ maxInboundMessageBytes ∧
        (receivePayload now ci p).1 = keepFragment (joinedGroup now ci fid p.sequence) fid p.payload) ∨
      ((joinedGroup now ci fid p.sequence).packetFragments.lookup fid = some p.payload ∧
        (receivePayload now ci p).1 = joinedGroup now ci fid p.sequence) ∨
      ((∃ q, q ≠ p.payload ∧ (joinedGroup now ci fid p.sequence).packetFragments.lookup fid = some q) ∨
          fid ∉ (joinedGroup now ci fid p.sequence).packetFragments ∧
            maxInboundMessageBytes < (joinedGroup now ci fid p.sequence).packetFragmentBytes + p.payload.length) ∧
        (receivePayload now ci p).1 = resetFragmentState (joinedGroup now ci fid p.sequence) := by
  have hkept : ∀ {kept : ClientInfo T} {u : Bool}, cacheFragment now ci fid p.sequence p.payload = (kept, .ok u) →
      receivePayload now ci p = (kept, none) := by
    intro kept u h
    rw [receivePayload, hp]
    exact (if_pos hfid).trans (by rw [h])
  have hfailed : ∀ {left : ClientInfo T} {e : FragmentError}, cacheFragment now ci fid p.sequence p.payload = (left, .error e) →
      receivePayload now ci p = (resetFragmentState left, none) := by
    intro left e h
    rw [receivePayload, hp]
    exact (if_pos hfid).trans (by rw [h])
  rcases cacheFragment_cases now ci hfid p.sequence p.payload with ⟨hn, hb, he⟩ | ⟨hl, he⟩ | ⟨hc, e, he⟩
  · exact Or.inl ⟨hn, hb, by rw [hkept he]⟩
  · exact Or.inr (Or.inl ⟨hl, by rw [hkept he]⟩)
  · exact Or.inr (Or.inr ⟨hc, by rw [hfailed he]⟩)

/-- What a final fragment brings and leaves. -/
theorem receivePayload_final (now : Instant) {ci : ClientInfo T} (hwf : FragmentsWf ci) {p : QPacket}
    (hp : p.fragmentId = some 0) :
    (∃ h joined, Completes (expireFragmentState now ci) p.sequence p.payload h ∧
        gather (expireFragmentState now ci).packetFragments.piece h = some joined ∧
        (receivePayload now ci p).2 = some (joined ++ p.payload) ∧
        (receivePayload now ci p).1 =
          if h = 0 then expireFragmentState now ci else resetFragmentState (expireFragmentState now ci)) ∨
      ((∀ h, ¬ Completes (expireFragmentState now ci) p.sequence p.payload h) ∧ (receivePayload now ci p).2 = none ∧
        (receivePayload now ci p).1 = resetFragmentState (expireFragmentState now ci)) := by
  have hfinished : ∀ {left : ClientInfo T} {payload : Bytes}, finishFragmentedPayload now ci p.sequence p.payload = (left, .ok payload) →
      receivePayload now ci p = (left, some payload) := by
    intro left payload h
    rw [receivePayload, hp]
    exact (if_neg (not_not.mpr rfl)).trans (by rw [h])
  have hfailed : ∀ {left : ClientInfo T} {e : FragmentError}, finishFragmentedPayload now ci p.sequence p.payload = (left, .error e) →
      receivePayload now ci p = (resetFragmentState left, none) := by
    intro left e h
    rw [receivePayload, hp]
    exact (if_neg (not_not.mpr rfl)).trans (by rw [h])
  rcases finishFragmentedPayload_cases now hwf p.sequence p.payload with ⟨h, joined, hc, hg, he⟩ | ⟨⟨e, he⟩, hn⟩
  · exact Or.inl ⟨h, joined, hc, hg, by rw [hfinished he], by rw [hfinished he]⟩
  · exact Or.inr ⟨hn, by rw [hfailed he], by rw [hfailed he]⟩

/-- A final fragment leaves no fragments. -/
theorem receivePayload_final_fragments (now : Instant) (ci : ClientInfo T) {p : QPacket} (hp : p.fragmentId = some 0) :
    (receivePayload now ci p).1.packetFragments = ∅ := by
  unfold receivePayload
  rw [hp]
  simp only [ne_eq, not_true_eq_false, if_false]
  split
  · rename_i ci' payload he
    exact finishFragmentedPayload_ok_empty he
  · rfl

/-- A final fragment leaves an empty cache with byte count 0. -/
theorem receivePayload_final_empty (now : Instant) {ci : ClientInfo T} (hwf : FragmentsWf ci) {p : QPacket}
    (hp : p.fragmentId = some 0) :
    (receivePayload now ci p).1.packetFragments = ∅ ∧ (receivePayload now ci p).1.packetFragmentBytes = 0 := by
  have he := receivePayload_final_fragments now ci hp
  refine ⟨he, ?_⟩
  rcases receivePayload_final now hwf hp with ⟨h, joined, _, _, _, hs⟩ | ⟨_, _, hs⟩
  · by_cases h0 : h = 0
    · rw [hs, if_pos h0] at he ⊢
      rw [(hwf.expire now).bytes, he]
      rfl
    · rw [hs, if_neg h0]
      rfl
  · rw [hs]
    rfl

/-- Receiving a packet keeps the cache well-formed. -/
theorem FragmentsWf.receive {ci : ClientInfo T} (h : FragmentsWf ci) (now : Instant) (p : QPacket) :
    FragmentsWf (receivePayload now ci p).1 := by
  cases hp : p.fragmentId with
  | none =>
    have he : receivePayload now ci p = (ci, some p.payload) := by rw [receivePayload, hp]
    rwa [he]
  | some fid =>
    by_cases hfid : fid = 0
    · subst hfid
      obtain ⟨he, hb⟩ := receivePayload_final_empty now h hp
      exact ⟨by rw [hb, he]; rfl, fun i hi => absurd (he ▸ hi) (AList.notMem_empty i)⟩
    · have hj : FragmentsWf (joinedGroup now ci fid p.sequence) := (h.expire now).openGroup now _
      rcases receivePayload_fragment now ci hp hfid with ⟨hn, _, he⟩ | ⟨_, he⟩ | ⟨_, he⟩
      · rw [he]; exact hj.keep hfid hn _
      · rwa [he]
      · rw [he]; exact FragmentsWf.reset _

/-! ## The packets of one message -/

/-- The cache holds pieces of the message and nothing else. -/
structure Holds (M : Message) (ci : ClientInfo T) : Prop where
  wf : FragmentsWf ci
  final : ci.packetFragments = ∅ ∨ ci.packetFragmentFinalSequence = some M.finalSequence
  pieces : ∀ i q, ci.packetFragments.lookup i = some q → chunkAt M.chunks i.toNat = some q

variable {M : Message}

/-- An empty cache holds pieces of every message. -/
theorem Holds.of_empty {ci : ClientInfo T} (he : ci.packetFragments = ∅) (hb : ci.packetFragmentBytes = 0) : Holds M ci where
  wf := ⟨by rw [he, hb]; rfl, fun i hi => absurd (he ▸ hi) (AList.notMem_empty i)⟩
  final := Or.inl he
  pieces := fun i q hq => by rw [he] at hq; nomatch hq

/-- Expiring keeps the pieces or forgets them all. -/
theorem Holds.expire {ci : ClientInfo T} (h : Holds M ci) (now : Instant) : Holds M (expireFragmentState now ci) := by
  rcases expireFragmentState_cases now ci with he | he
  · rw [he]; exact Holds.of_empty rfl rfl
  · rwa [he]

/-- The group a packet of the message joins holds pieces of the message, and is the message's. -/
theorem Holds.joined {ci : ClientInfo T} (h : Holds M ci) (now : Instant) {k : Nat} {p : QPacket} (hp : M.IsPacket k p) :
    Holds M (joinedGroup now ci (UInt8.ofNat (M.chunks.length - 1 - k)) p.sequence) ∧
      (joinedGroup now ci (UInt8.ofNat (M.chunks.length - 1 - k)) p.sequence).packetFragmentFinalSequence =
        some M.finalSequence := by
  unfold joinedGroup
  rw [hp.sequence_add]
  refine ⟨?_, openFragmentGroup_final _ _ _⟩
  rcases openFragmentGroup_cases now (expireFragmentState now ci) M.finalSequence with ⟨_, he⟩ | ⟨_, he, hb⟩
  · rw [he]; exact h.expire now
  · exact Holds.of_empty he hb

/-- A new piece joins the pieces of its message. -/
theorem Holds.keep {ci : ClientInfo T} (h : Holds M ci) (hf : ci.packetFragmentFinalSequence = some M.finalSequence) {k : Nat}
    {p : QPacket} (hp : M.IsPacket k p) (hfid : UInt8.ofNat (M.chunks.length - 1 - k) ≠ 0)
    (hn : UInt8.ofNat (M.chunks.length - 1 - k) ∉ ci.packetFragments) :
    Holds M (keepFragment ci (UInt8.ofNat (M.chunks.length - 1 - k)) p.payload) := by
  refine ⟨h.wf.keep hfid hn _, Or.inr hf, fun i q hq => ?_⟩
  by_cases hi : i = UInt8.ofNat (M.chunks.length - 1 - k)
  · subst hi
    rw [keepFragment, AList.lookup_insert, Option.some.injEq] at hq
    rw [M.toNat_fragmentId k, hp.chunkAt, hq]
  · rw [keepFragment, AList.lookup_insert_ne hi] at hq
    exact h.pieces i q hq

/-- A packet of the message keeps the cache on the message. -/
theorem Holds.receive {ci : ClientInfo T} (h : Holds M ci) (now : Instant) {k : Nat} {p : QPacket} (hp : M.IsPacket k p) :
    Holds M (receivePayload now ci p).1 := by
  by_cases hk : k = M.chunks.length - 1
  · have hfid : p.fragmentId = some 0 := by rw [hp.fragmentId, (Message.fragmentId_eq_zero_iff hp.lt).mpr hk]
    obtain ⟨he, hb⟩ := receivePayload_final_empty now h.wf hfid
    exact Holds.of_empty he hb
  · have hfid := mt (Message.fragmentId_eq_zero_iff hp.lt).mp hk
    obtain ⟨hj, hf⟩ := h.joined now hp
    rcases receivePayload_fragment now ci hp.fragmentId hfid with ⟨hn, _, he⟩ | ⟨_, he⟩ | ⟨_, he⟩
    · rw [he]
      exact hj.keep hf hp hfid hn
    · rwa [he]
    · rw [he]; exact Holds.of_empty rfl rfl

/-- The ids cached of a message are below its number of chunks. -/
theorem Holds.completes_lt {ci : ClientInfo T} (h : Holds M ci) {seq : UInt16} {q : Bytes} {n : Nat}
    (hc : Completes ci seq q n) : n < M.chunks.length := by
  by_cases hn : n = 0
  · rw [hn]; exact M.length_pos
  · have hto : (UInt8.ofNat n).toNat = n := UInt8.toNat_ofNat_of_lt' hc.lt
    have hm : UInt8.ofNat n ∈ ci.packetFragments := (hc.exactly _).mpr (by rw [hto]; omega)
    obtain ⟨piece, hl⟩ := Option.isSome_iff_exists.mp (AList.lookup_isSome.mpr hm)
    have hch := h.pieces _ _ hl
    rw [hto] at hch
    exact (chunkAt_isSome_iff M.chunks n).mp (by rw [hch]; rfl)

/-- The final packet of the message brings the tail of the message that follows the highest piece cached. -/
theorem Holds.gather_tail {ci : ClientInfo T} (h : Holds M ci) {k : Nat} {p : QPacket} (hp : M.IsPacket k p)
    (hk : k = M.chunks.length - 1) {n : Nat} (hc : Completes ci p.sequence p.payload n) {joined : Bytes}
    (hg : gather ci.packetFragments.piece n = some joined) :
    joined ++ p.payload = (M.chunks.drop (M.chunks.length - 1 - n)).flatten := by
  have hlast : chunkAt M.chunks 0 = some p.payload := by
    have := hp.chunkAt
    rwa [hk, Nat.sub_self] at this
  have hpieces : ∀ i, 1 ≤ i → i ≤ n → ci.packetFragments.piece i = chunkAt M.chunks i := by
    intro i h1 h2
    have hto : (UInt8.ofNat i).toNat = i := UInt8.toNat_ofNat_of_lt' (Nat.lt_of_le_of_lt h2 hc.lt)
    have hm : UInt8.ofNat i ∈ ci.packetFragments := (hc.exactly _).mpr (by rw [hto]; exact ⟨h1, h2⟩)
    obtain ⟨piece, hl⟩ := Option.isSome_iff_exists.mp (AList.lookup_isSome.mpr hm)
    have hch := h.pieces _ _ hl
    rw [hto] at hch
    rw [Fragments.piece, hl, hch]
  obtain ⟨joined', hg', he⟩ := gather_eq (h.completes_lt hc) hlast hpieces
  rw [hg, Option.some.injEq] at hg'
  rw [hg', he]

end Scbl.Prudp
