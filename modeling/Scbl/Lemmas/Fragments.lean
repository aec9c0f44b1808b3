import Scbl.Prudp.Fragments

/-!
# The fragment cache: what each operation does

`FragmentsWf` is what every operation keeps: the byte count is the bytes retained, and id 0 is never retained. On such a cache
`finishFragmentedPayload` succeeds exactly when the cached ids are `1, …, h` for some `h`, and then it joins them
(`finishFragmentedPayload_ok_iff`).
-/

namespace Scbl.Prudp

open Scbl.Lib

variable {T : Type}

/-- The bytes a cache retains. -/
def Fragments.bytes (fragments : Fragments) : Nat := (fragments.entries.map (fun e => e.2.length)).sum

/-- A cache whose byte count is right and that does not hold a final fragment. -/
structure FragmentsWf (ci : ClientInfo T) : Prop where
  bytes : ci.packetFragmentBytes = ci.packetFragments.bytes
  pos : ∀ i ∈ ci.packetFragments, i ≠ 0

/-- The cached ids are exactly `1, …, h`. -/
def CachesExactly (ci : ClientInfo T) (h : Nat) : Prop := ∀ i : UInt8, i ∈ ci.packetFragments ↔ 1 ≤ i.toNat ∧ i.toNat ≤ h

@[simp] theorem Fragments.bytes_empty : Fragments.bytes (∅ : Fragments) = 0 := rfl

/-- A cache without ids is empty. -/
theorem keys_eq_nil_iff (fragments : Fragments) : fragments.keys = [] ↔ fragments = ∅ :=
  ⟨fun h => AList.ext (List.map_eq_nil_iff.mp h), fun h => by rw [h]; rfl⟩

/-- Keeping a new fragment adds its bytes. -/
theorem Fragments.bytes_insert {fragments : Fragments} {i : UInt8} (hi : i ∉ fragments) (p : Bytes) :
    Fragments.bytes (AList.insert i p fragments) = fragments.bytes + p.length := by
  rw [Fragments.bytes, AList.entries_insert_of_notMem hi, List.map_cons, List.sum_cons, Nat.add_comm, Fragments.bytes]

/-! ## Forgetting and expiring -/

@[simp] theorem resetFragmentState_fragments (ci : ClientInfo T) : (resetFragmentState ci).packetFragments = ∅ := rfl

@[simp] theorem resetFragmentState_bytes (ci : ClientInfo T) : (resetFragmentState ci).packetFragmentBytes = 0 := rfl

@[simp] theorem resetFragmentState_final (ci : ClientInfo T) :
    (resetFragmentState ci).packetFragmentFinalSequence = none := rfl

@[simp] theorem resetFragmentState_started (ci : ClientInfo T) : (resetFragmentState ci).packetFragmentStartedAt = none := rfl

/-- An empty cache is well-formed. -/
theorem FragmentsWf.reset (ci : ClientInfo T) : FragmentsWf (resetFragmentState ci) :=
  ⟨rfl, fun i hi => absurd hi (AList.notMem_empty i)⟩

/-- Expiring forgets the group or changes nothing. -/
theorem expireFragmentState_cases (now : Instant) (ci : ClientInfo T) :
    expireFragmentState now ci = resetFragmentState ci ∨ expireFragmentState now ci = ci := by
  unfold expireFragmentState
  split
  · exact Or.inl rfl
  · exact Or.inr rfl

/-- Expiring keeps the cache well-formed. -/
theorem FragmentsWf.expire {ci : ClientInfo T} (h : FragmentsWf ci) (now : Instant) :
    FragmentsWf (expireFragmentState now ci) := by
  rcases expireFragmentState_cases now ci with he | he
  · rw [he]; exact FragmentsWf.reset ci
  · rwa [he]

/-- Expiring an empty cache leaves it empty. -/
theorem expireFragmentState_empty {ci : ClientInfo T} (h : ci.packetFragments = ∅) (now : Instant) :
    (expireFragmentState now ci).packetFragments = ∅ := by
  rcases expireFragmentState_cases now ci with he | he
  · rw [he]; rfl
  · rwa [he]

/-! ## Opening a group -/

/-- Opening a group other than the open one empties the cache. -/
theorem openFragmentGroup_cases (now : Instant) (ci : ClientInfo T) (f : UInt16) :
    (ci.packetFragmentFinalSequence = some f ∧ openFragmentGroup now ci f = ci) ∨
      (ci.packetFragmentFinalSequence ≠ some f ∧ (openFragmentGroup now ci f).packetFragments = ∅ ∧
        (openFragmentGroup now ci f).packetFragmentBytes = 0) := by
  unfold openFragmentGroup
  split
  · rename_i h
    exact Or.inr ⟨h, rfl, rfl⟩
  · rename_i h
    exact Or.inl ⟨not_not.mp h, rfl⟩

/-- The group opened is the open group. -/
@[simp] theorem openFragmentGroup_final (now : Instant) (ci : ClientInfo T) (f : UInt16) :
    (openFragmentGroup now ci f).packetFragmentFinalSequence = some f := by
  unfold openFragmentGroup
  split
  · rfl
  · rename_i h
    exact not_not.mp h

/-- Opening a group keeps the cache well-formed. -/
theorem FragmentsWf.openGroup {ci : ClientInfo T} (h : FragmentsWf ci) (now : Instant) (f : UInt16) :
    FragmentsWf (openFragmentGroup now ci f) := by
  rcases openFragmentGroup_cases now ci f with ⟨_, he⟩ | ⟨_, he, hb⟩
  · rwa [he]
  · exact ⟨by rw [he, hb]; rfl, fun i hi => absurd (he ▸ hi) (AList.notMem_empty i)⟩

/-! ## Keeping a fragment -/

/-- The connection whose open group a fragment joins. -/
def joinedGroup (now : Instant) (ci : ClientInfo T) (fragmentId : UInt8) (sequence : UInt16) : ClientInfo T :=
  openFragmentGroup now (expireFragmentState now ci) (sequence + fragmentId.toUInt16)

/-- The connection after a new fragment is kept in its open group. -/
def keepFragment (ci : ClientInfo T) (fragmentId : UInt8) (payload : Bytes) : ClientInfo T :=
  { ci with
    packetFragments := AList.insert fragmentId payload ci.packetFragments
    packetFragmentBytes := ci.packetFragmentBytes + payload.length }

/-- What `cacheFragment` does with a non-final fragment: it is new and kept, or known, or refused. -/
theorem cacheFragment_cases (now : Instant) (ci : ClientInfo T) {fid : UInt8} (hfid : fid ≠ 0) (seq : UInt16) (p : Bytes) :
    (fid ∉ (joinedGroup now ci fid seq).packetFragments ∧
        (joinedGroup now ci fid seq).packetFragmentBytes + p.length ≤ maxInboundMessageBytes ∧
        cacheFragment now ci fid seq p = (keepFragment (joinedGroup now ci fid seq) fid p, .ok true)) ∨
      ((joinedGroup now ci fid seq).packetFragments.lookup fid = some p ∧
        cacheFragment now ci fid seq p = (joinedGroup now ci fid seq, .ok false)) ∨
      ((∃ q, q ≠ p ∧ (joinedGroup now ci fid seq).packetFragments.lookup fid = some q) ∨
          fid ∉ (joinedGroup now ci fid seq).packetFragments ∧
            maxInboundMessageBytes < (joinedGroup now ci fid seq).packetFragmentBytes + p.length) ∧
        ∃ e, cacheFragment now ci fid seq p = (joinedGroup now ci fid seq, .error e) := by
  have hlim : ¬ (fid = 0 ∨ maxInboundFragments < fid) := by
    rintro (h | h)
    · exact hfid h
    · have := UInt8.lt_iff_toNat_lt.mp h
      have := fid.toNat_lt
      have : maxInboundFragments.toNat = 255 := rfl
      omega
  unfold cacheFragment
  simp only [if_neg hlim]
  rw [← joinedGroup]
  cases hl : (joinedGroup now ci fid seq).packetFragments.lookup fid with
  | some q =>
    by_cases hq : q = p
    · exact Or.inr (Or.inl ⟨by rw [hq], by simp only [if_pos hq]⟩)
    · exact Or.inr (Or.inr ⟨Or.inl ⟨q, hq, rfl⟩, _, by simp only [if_neg hq]; rfl⟩)
  | none =>
    by_cases hb : maxInboundMessageBytes < (joinedGroup now ci fid seq).packetFragmentBytes + p.length
    · refine Or.inr (Or.inr ⟨Or.inr ⟨AList.lookup_eq_none.mp hl, hb⟩, ?_⟩)
      by_cases h64 : (joinedGroup now ci fid seq).packetFragmentBytes + p.length < 2 ^ 64
      · exact ⟨_, by simp only [checkedAdd, if_pos h64, if_pos hb]; rfl⟩
      · exact ⟨_, by simp only [checkedAdd, if_neg h64]; rfl⟩
    · have h64 : (joinedGroup now ci fid seq).packetFragmentBytes + p.length < 2 ^ 64 := by
        unfold maxInboundMessageBytes at hb
        omega
      refine Or.inl ⟨AList.lookup_eq_none.mp hl, Nat.le_of_not_lt hb, ?_⟩
      simp only [checkedAdd, if_pos h64, if_neg hb]
      rfl

/-- `cacheFragment` refuses a final fragment. -/
theorem cacheFragment_zero (now : Instant) (ci : ClientInfo T) {fid : UInt8} (hfid : fid = 0) {seq : UInt16} {p : Bytes} :
    cacheFragment now ci fid seq p = (expireFragmentState now ci, .error .idOutsideLimit) := by
  unfold cacheFragment
  simp only [if_pos (Or.inl hfid : fid = 0 ∨ maxInboundFragments < fid)]

/-- Keeping a new non-final fragment keeps the cache well-formed. -/
theorem FragmentsWf.keep {ci : ClientInfo T} (h : FragmentsWf ci) {fid : UInt8} (hfid : fid ≠ 0)
    (hnew : fid ∉ ci.packetFragments) (p : Bytes) : FragmentsWf (keepFragment ci fid p) := by
  refine ⟨?_, fun i hi => ?_⟩
  · rw [keepFragment, Fragments.bytes_insert hnew, h.bytes]
  · rcases (AList.mem_insert _).mp hi with rfl | hi
    · exact hfid
    · exact h.pos i hi

/-- `cacheFragment` keeps the cache well-formed. -/
theorem FragmentsWf.cache {ci : ClientInfo T} (h : FragmentsWf ci) (now : Instant) (fid : UInt8) (seq : UInt16) (p : Bytes) :
    FragmentsWf (cacheFragment now ci fid seq p).1 := by
  by_cases hfid : fid = 0
  · rw [cacheFragment_zero now ci hfid]
    exact h.expire now
  · have hj : FragmentsWf (joinedGroup now ci fid seq) := (h.expire now).openGroup now _
    rcases cacheFragment_cases now ci hfid seq p with ⟨hn, _, he⟩ | ⟨_, he⟩ | ⟨_, e, he⟩
    · rw [he]; exact hj.keep hfid hn p
    · rwa [he]
    · rwa [he]

/-! ## Completing the group -/

/-- The maximum of two bytes is their least upper bound. -/
instance instLawfulOrderMaxUInt8 : Std.LawfulOrderMax UInt8 where
  max_eq_or a b := by
    by_cases h : a ≤ b
    · exact Or.inr (if_pos h)
    · exact Or.inl (if_neg h)
  max_le_iff a b c := by
    by_cases h : a ≤ b
    · rw [show max a b = b from if_pos h]
      exact ⟨fun hb => ⟨UInt8.le_trans h hb, hb⟩, fun hb => hb.2⟩
    · rw [show max a b = a from if_neg h]
      exact ⟨fun ha => ⟨ha, UInt8.le_trans (UInt8.le_of_lt (UInt8.not_le.mp h)) ha⟩, fun ha => ha.1⟩

/-- The numbers of the cached ids are distinct. -/
theorem nodup_keys_toNat (fragments : Fragments) : (fragments.keys.map UInt8.toNat).Nodup :=
  (AList.keys_nodup fragments).map (fun _ _ h => UInt8.toNat_inj.mp h)

/-- As many ids as the highest one, none of them 0, are all the ids up to the highest. -/
theorem cachesExactly_of_max {ci : ClientInfo T} (hpos : ∀ i ∈ ci.packetFragments, i ≠ 0) {highest : UInt8}
    (hmax : ci.packetFragments.keys.max? = some highest) (hlen : ci.packetFragments.keys.length = highest.toNat) :
    CachesExactly ci highest.toNat := by
  have hle := (List.max?_eq_some_iff.mp hmax).2
  have hb : ∀ i ∈ ci.packetFragments, 1 ≤ i.toNat ∧ i.toNat ≤ highest.toNat := by
    intro i hi
    refine ⟨Nat.one_le_iff_ne_zero.mpr (fun h0 => hpos i hi (UInt8.toNat_inj.mp h0)), ?_⟩
    exact UInt8.le_iff_toNat_le.mp (hle i (AList.mem_keys.mp hi))
  intro i
  refine ⟨hb i, fun ⟨h1, h2⟩ => ?_⟩
  have hm : i.toNat ∈ ci.packetFragments.keys.map UInt8.toNat := by
    refine mem_of_nodup_of_length (nodup_keys_toNat _) ?_ (by rw [List.length_map, hlen]) h1 h2
    intro j hj
    obtain ⟨k, hk, rfl⟩ := List.mem_map.mp hj
    exact hb k (AList.mem_keys.mpr hk)
  obtain ⟨k, hk, hki⟩ := List.mem_map.mp hm
  exact AList.mem_keys.mpr (UInt8.toNat_inj.mp hki ▸ hk)

/-- When the cached ids are `1, …, h`, the highest of them is `h`, which is also how many they are. -/
theorem max_of_cachesExactly {ci : ClientInfo T} {h : Nat} (hc : CachesExactly ci h) (h1 : 1 ≤ h) (h2 : h < 256) :
    ci.packetFragments.keys.max? = some (UInt8.ofNat h) ∧ ci.packetFragments.keys.length = h := by
  have hto : (UInt8.ofNat h).toNat = h := UInt8.toNat_ofNat_of_lt' h2
  refine ⟨List.max?_eq_some_iff.mpr ⟨AList.mem_keys.mp ((hc _).mpr ?_), fun i hi => ?_⟩, ?_⟩
  · rw [hto]
    exact ⟨h1, Nat.le_refl h⟩
  · rw [UInt8.le_iff_toNat_le, hto]
    exact ((hc i).mp (AList.mem_keys.mpr hi)).2
  · rw [← List.length_map UInt8.toNat]
    refine length_of_nodup_of_mem (nodup_keys_toNat _) (fun i => ?_)
    constructor
    · intro hi
      obtain ⟨k, hk, rfl⟩ := List.mem_map.mp hi
      exact (hc k).mp (AList.mem_keys.mpr hk)
    · intro hi
      have hi' : (UInt8.ofNat i).toNat = i := UInt8.toNat_ofNat_of_lt' (Nat.lt_of_le_of_lt hi.2 h2)
      exact List.mem_map.mpr ⟨_, AList.mem_keys.mp ((hc _).mpr (by rwa [hi'])), hi'⟩

/-- The cached ids are `1, …, 0` exactly when nothing is cached. -/
theorem cachesExactly_zero_iff (ci : ClientInfo T) : CachesExactly ci 0 ↔ ci.packetFragments = ∅ := by
  constructor
  · intro h
    have hk : ci.packetFragments.keys = [] := by
      refine List.eq_nil_iff_forall_not_mem.mpr (fun i hi => ?_)
      have := (h i).mp (AList.mem_keys.mpr hi)
      omega
    exact (keys_eq_nil_iff _).mp hk
  · intro h i
    rw [h]
    exact ⟨fun hi => absurd hi (AList.notMem_empty i), fun hi => absurd hi (by omega)⟩

/-- When the cached ids are `1, …, h` there is a piece under each of these numbers. -/
theorem gather_isSome {ci : ClientInfo T} {h : Nat} (hc : CachesExactly ci h) (h2 : h < 256) :
    ∃ joined, gather ci.packetFragments.piece h = some joined := by
  have hall : ∀ k, k ≤ h → ∃ joined, gather ci.packetFragments.piece k = some joined := by
    intro k hk
    induction k with
    | zero => exact ⟨[], rfl⟩
    | succ k ih =>
      obtain ⟨rest, hrest⟩ := ih (by omega)
      have hto : (UInt8.ofNat (k + 1)).toNat = k + 1 := UInt8.toNat_ofNat_of_lt' (Nat.lt_of_le_of_lt hk h2)
      have hm : UInt8.ofNat (k + 1) ∈ ci.packetFragments := (hc _).mpr (by rw [hto]; omega)
      obtain ⟨piece, hp⟩ := Option.isSome_iff_exists.mp (AList.lookup_isSome.mpr hm)
      exact ⟨piece ++ rest, by rw [gather, Fragments.piece, hp, hrest]; rfl⟩
  exact hall h (Nat.le_refl h)

/-- The final fragment `p` with sequence `seq` completes the cached fragments `1, …, h`. -/
structure Completes (ci : ClientInfo T) (seq : UInt16) (p : Bytes) (h : Nat) : Prop where
  lt : h < 256
  exactly : CachesExactly ci h
  final : h = 0 ∨ ci.packetFragmentFinalSequence = some seq
  bytes : ci.packetFragmentBytes + p.length ≤ maxInboundMessageBytes

/-- What a final fragment does: it completes the cached fragments `1, …, h`, is appended to them and empties the cache; or it
is refused. -/
theorem finishFragmentedPayload_cases (now : Instant) {ci : ClientInfo T} (hwf : FragmentsWf ci) (seq : UInt16) (p : Bytes) :
    (∃ h joined, Completes (expireFragmentState now ci) seq p h ∧
        gather (expireFragmentState now ci).packetFragments.piece h = some joined ∧
        finishFragmentedPayload now ci seq p =
          (if h = 0 then expireFragmentState now ci else resetFragmentState (expireFragmentState now ci), .ok (joined ++ p))) ∨
      (∃ e, finishFragmentedPayload now ci seq p = (expireFragmentState now ci, .error e)) ∧
        ∀ h, ¬ Completes (expireFragmentState now ci) seq p h := by
  have hwf' := hwf.expire now
  unfold finishFragmentedPayload
  generalize expireFragmentState now ci = c at hwf' ⊢
  simp only
  by_cases hfin : maxInboundMessageBytes < p.length
  · refine Or.inr ⟨⟨_, by rw [if_pos hfin]⟩, ?_⟩
    intro h hc
    have := hc.bytes
    omega
  rw [if_neg hfin]
  by_cases hk : c.packetFragments.keys = []
  · have hempty := (keys_eq_nil_iff _).mp hk
    have hb0 : c.packetFragmentBytes = 0 := by rw [hwf'.bytes, hempty]; rfl
    refine Or.inl ⟨0, [], ⟨by omega, (cachesExactly_zero_iff c).mpr hempty, Or.inl rfl, by omega⟩, rfl, ?_⟩
    rw [if_pos hk, if_pos rfl, List.nil_append]
  rw [if_neg hk]
  have hne : ∀ {h}, CachesExactly c h → h ≠ 0 := by
    rintro h hc rfl
    exact hk (by rw [(cachesExactly_zero_iff c).mp hc]; rfl)
  by_cases hs : c.packetFragmentFinalSequence = some seq
  · have hs' : ¬ c.packetFragmentFinalSequence ≠ some seq := not_not.mpr hs
    rw [if_neg hs']
    cases hm : c.packetFragments.keys.max? with
    | none => exact absurd (List.max?_eq_none_iff.mp hm) hk
    | some highest =>
      have hlim : ¬ maxInboundFragments < highest := by
        intro hlt
        have := UInt8.lt_iff_toNat_lt.mp hlt
        have := highest.toNat_lt
        have : maxInboundFragments.toNat = 255 := rfl
        omega
      by_cases hlen : c.packetFragments.keys.length = highest.toNat
      · have hc := cachesExactly_of_max hwf'.pos hm hlen
        have hcond : ¬ (maxInboundFragments < highest ∨ c.packetFragments.keys.length ≠ highest.toNat) := by
          rintro (h | h)
          · exact hlim h
          · exact h hlen
        simp only [if_neg hcond]
        by_cases hb : maxInboundMessageBytes < c.packetFragmentBytes + p.length
        · refine Or.inr ⟨?_, ?_⟩
          · by_cases h64 : c.packetFragmentBytes + p.length < 2 ^ 64
            · exact ⟨_, by simp only [checkedAdd, if_pos h64, if_pos hb]; rfl⟩
            · exact ⟨_, by simp only [checkedAdd, if_neg h64]; rfl⟩
          · intro h hc'
            have := hc'.bytes
            omega
        · have h64 : c.packetFragmentBytes + p.length < 2 ^ 64 := by
            unfold maxInboundMessageBytes at hb
            omega
          obtain ⟨joined, hj⟩ := gather_isSome hc highest.toNat_lt
          refine Or.inl ⟨highest.toNat, joined, ⟨highest.toNat_lt, hc, Or.inr hs, Nat.le_of_not_lt hb⟩, hj, ?_⟩
          simp only [checkedAdd, if_pos h64, if_neg hb, hj, if_neg (hne hc)]
      · refine Or.inr ⟨⟨_, by simp only [if_pos (Or.inr hlen : maxInboundFragments < highest ∨ _)]; rfl⟩, ?_⟩
        intro h hc
        obtain ⟨hmax, hl⟩ := max_of_cachesExactly hc.exactly (Nat.one_le_iff_ne_zero.mpr (hne hc.exactly)) hc.lt
        rw [hm, Option.some.injEq] at hmax
        exact hlen (by rw [hl, hmax, UInt8.toNat_ofNat_of_lt' hc.lt])
  · have hs' : c.packetFragmentFinalSequence ≠ some seq := hs
    refine Or.inr ⟨⟨_, by rw [if_pos hs']⟩, ?_⟩
    intro h hc
    exact hc.final.elim (hne hc.exactly) hs

/-- A completed message leaves an empty cache. -/
theorem finishFragmentedPayload_ok_empty {now : Instant} {ci ci' : ClientInfo T} {seq : UInt16} {p out : Bytes}
    (h : finishFragmentedPayload now ci seq p = (ci', .ok out)) : ci'.packetFragments = ∅ := by
  unfold finishFragmentedPayload at h
  simp only at h
  split at h
  · nomatch h
  split at h
  · rename_i hk
    obtain ⟨rfl, -⟩ := Prod.mk.inj h
    exact (keys_eq_nil_iff _).mp hk
  split at h
  · nomatch h
  split at h
  · nomatch h
  split at h
  · nomatch h
  split at h
  · nomatch h
  split at h
  · nomatch h
  split at h
  · nomatch h
  · obtain ⟨rfl, -⟩ := Prod.mk.inj h
    rfl

/-- A final fragment within the limit is its own message when nothing is cached. -/
theorem finishFragmentedPayload_empty (now : Instant) {ci : ClientInfo T}
    (he : (expireFragmentState now ci).packetFragments = ∅) (seq : UInt16) {p : Bytes}
    (hp : p.length ≤ maxInboundMessageBytes) :
    finishFragmentedPayload now ci seq p = (expireFragmentState now ci, .ok p) := by
  unfold finishFragmentedPayload
  simp only [if_neg (Nat.not_lt.mpr hp)]
  rw [if_pos (by rw [he]; rfl)]

/-- A final fragment within the limit is refused when another group is cached. -/
theorem finishFragmentedPayload_mismatch (now : Instant) {ci : ClientInfo T}
    (hne : (expireFragmentState now ci).packetFragments ≠ ∅) {seq : UInt16}
    (hs : (expireFragmentState now ci).packetFragmentFinalSequence ≠ some seq) {p : Bytes}
    (hp : p.length ≤ maxInboundMessageBytes) :
    finishFragmentedPayload now ci seq p = (expireFragmentState now ci, .error .sequenceMismatch) := by
  unfold finishFragmentedPayload
  simp only [if_neg (Nat.not_lt.mpr hp)]
  rw [if_neg (mt (keys_eq_nil_iff _).mp hne), if_pos hs]

/-- Completing or refusing a group keeps the cache well-formed. -/
theorem FragmentsWf.finish {ci : ClientInfo T} (h : FragmentsWf ci) (now : Instant) (seq : UInt16) (p : Bytes) :
    FragmentsWf (finishFragmentedPayload now ci seq p).1 := by
  rcases finishFragmentedPayload_cases now h seq p with ⟨k, joined, _, _, he⟩ | ⟨⟨e, he⟩, _⟩
  · rw [he]
    split
    · exact h.expire now
    · exact FragmentsWf.reset _
  · rw [he]
    exact h.expire now

end Scbl.Prudp
