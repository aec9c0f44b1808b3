import Mathlib.Data.List.Perm.Subperm
import Scbl.Launcher.PeerProbeService
import Scbl.Lib.Lists

/-!
# The list of peers

A peer is listed under the address that it reports, not under the one that was probed. The list is right exactly when the addresses that are
reported are those that were probed and answered, in whatever order the probes complete.
-/

namespace Scbl.Launcher

open Scbl.Lib

namespace PeerProbeService

variable {ordinal : OrdinalCase}

/-- The address that a probe which is answered tells. -/
def reportedIp (deserialize : Text → Option PeerProbeResponse) (outcome : Text → ProbeOutcome) (ip : Text) : Option Text :=
  (probeOne deserialize ip (outcome ip)).map (·.virtualIp)

/-- The probed addresses that answer. -/
def answering (ordinal : OrdinalCase) (outcome : Text → ProbeOutcome) (selfIp : Text) (candidateIps : List Text) (scanFallback : Bool) : List Text :=
  (allTargets ordinal (trimOr selfIp []) candidateIps scanFallback).filter (outcome · ≠ .noAnswer)

/-- Every probed address that answers is reported, by itself or by another one. -/
def AllReported (ordinal : OrdinalCase) (deserialize : Text → Option PeerProbeResponse) (outcome : Text → ProbeOutcome) (answering : List Text) : Prop :=
  ∀ ip ∈ answering, ∃ other ∈ answering, ∃ reported, reportedIp deserialize outcome other = some reported ∧ ordinal.equals reported ip

/-- The peers are listed as they should be. -/
structure ListsPeers (ordinal : OrdinalCase) (selfIp : Text) (candidateIps answering : List Text) (peers : List PeerInfo) : Prop where
  self : (peers.filter (·.isSelf)).map (·.virtualIp) = [trim selfIp]
  once : (peers.map (fun p => ordinal.key p.virtualIp)).Nodup
  reachable : ∀ ip ∈ answering, ∃ p ∈ peers, ordinal.equals p.virtualIp ip ∧ p.isReachable
  routed : ∀ candidate ∈ candidateIps, isScblClientIp ordinal (normalizeCandidateIp candidate) →
    peers.countP (fun p => ordinal.equals p.virtualIp (normalizeCandidateIp candidate)) = 1

/-! ## Targets -/

theorem equals_iff {a b : Text} : ordinal.equals a b = true ↔ ordinal.key a = ordinal.key b := decide_eq_true_iff

theorem equals_eq_false_iff {a b : Text} : ordinal.equals a b = false ↔ ordinal.key a ≠ ordinal.key b := decide_eq_false_iff_not

/-- What is kept when equal texts are dropped: one text of each kind. -/
theorem distinct_spec (texts : List Text) :
    ((ordinal.distinct texts).map ordinal.key).Nodup ∧ (∀ t ∈ ordinal.distinct texts, t ∈ texts) ∧
      ∀ t ∈ texts, ∃ t' ∈ ordinal.distinct texts, ordinal.key t' = ordinal.key t := by
  rw [OrdinalCase.distinct]
  induction texts using List.reverseRecOn with
  | nil => exact ⟨List.nodup_nil, fun _ h => h, fun _ h => nomatch h⟩
  | append_singleton texts text ih =>
    obtain ⟨hnodup, hsub, hall⟩ := ih
    rw [List.foldl_append, List.foldl_cons, List.foldl_nil]
    split
    · rename_i hany
      refine ⟨hnodup, fun t ht => List.mem_append_left _ (hsub t ht), fun t ht => ?_⟩
      rcases List.mem_append.1 ht with ht | ht
      · exact hall t ht
      · obtain ⟨t', ht', heq⟩ := List.any_eq_true.1 hany
        exact ⟨t', ht', (List.mem_singleton.1 ht ▸ equals_iff.1 heq).symm⟩
    · rename_i hany
      refine ⟨?_, fun t ht => ?_, fun t ht => ?_⟩
      · rw [List.map_append, List.map_singleton, List.nodup_append]
        refine ⟨hnodup, List.nodup_singleton _, ?_⟩
        rintro _ hk _ hk' rfl
        obtain ⟨t, ht, hkey⟩ := List.mem_map.1 hk
        exact hany (List.any_eq_true.2 ⟨t, ht, equals_iff.2 ((List.mem_singleton.1 hk').symm.trans hkey.symm)⟩)
      · rcases List.mem_append.1 ht with ht | ht
        · exact List.mem_append_left _ (hsub t ht)
        · exact List.mem_append_right _ ht
      · rcases List.mem_append.1 ht with ht | ht
        · obtain ⟨t', ht', hkey⟩ := hall t ht
          exact ⟨t', List.mem_append_left _ ht', hkey⟩
        · exact ⟨text, by simp, by rw [List.mem_singleton.1 ht]⟩

/-- Characters that have no case. -/
theorem upper_of_caseless {c : Char} (h : c.isDigit = true ∨ c = '.') : ordinal.upper c = c := by
  have hall : ∀ n : Fin 128, ((Char.ofNat n).isDigit = true ∨ Char.ofNat n = '.') → (Char.ofNat n).toUpper = Char.ofNat n := by decide
  have hlt : c.toNat < 128 := by
    rcases h with h | rfl
    · simp only [Char.isDigit, Bool.and_eq_true, decide_eq_true_eq, ge_iff_le, UInt32.le_iff_toNat_le] at h
      have hnine : '9'.val.toNat = 57 := rfl
      have hle := h.2
      simp only [Char.toNat]
      omega
    · decide
  have hchar := hall ⟨c.toNat, hlt⟩
  simp only [Char.ofNat_toNat] at hchar
  rw [ordinal.upper_ascii c hlt, hchar h]

theorem key_subnetIp (octet : Nat) : ordinal.key (subnetIp octet) = subnetIp octet := by
  have hchars : ∀ c ∈ subnetIp octet, c.isDigit = true ∨ c = '.' := by
    intro c hc
    rcases List.mem_append.1 hc with hc | hc
    · have hprefix : clientIpPrefix.all (fun c => c.isDigit || c = '.') = true := rfl
      simpa using List.all_eq_true.1 hprefix c hc
    · exact .inl (Nat.isDigit_of_mem_toDigits (by decide) (by decide) hc)
  exact (List.map_congr_left fun c hc => upper_of_caseless (hchars c hc)).trans (List.map_id _)

theorem subnetIp_inj {m n : Nat} (h : subnetIp m = subnetIp n) : m = n := by
  have hdigits := List.append_cancel_left h
  rw [← digitsValue_toDigits m, hdigits, digitsValue_toDigits]

/-- A candidate that is not the own address is among the routes. -/
theorem route_of_candidate {selfIp candidate : Text} {candidateIps : List Text} (h : candidate ∈ candidateIps)
    (hvalid : isScblClientIp ordinal (normalizeCandidateIp candidate))
    (hne : ordinal.key (normalizeCandidateIp candidate) ≠ ordinal.key selfIp) :
    ∃ route ∈ routeTargets ordinal selfIp candidateIps, ordinal.key route = ordinal.key (normalizeCandidateIp candidate) := by
  refine (distinct_spec _).2.2 _ (List.mem_filter.2 ⟨List.mem_filter.2 ⟨List.mem_map_of_mem h, hvalid⟩, ?_⟩)
  rw [equals_eq_false_iff.2 hne]
  rfl

/-- No address is probed twice. -/
theorem nodup_allTargets (selfIp : Text) (candidateIps : List Text) (scanFallback : Bool) :
    ((allTargets ordinal selfIp candidateIps scanFallback).map ordinal.key).Nodup := by
  have hroutes : ((routeTargets ordinal selfIp candidateIps).map ordinal.key).Nodup := (distinct_spec _).1
  rw [allTargets, List.map_append, List.nodup_append]
  refine ⟨hroutes, ?_, ?_⟩
  · split
    · have hscan : (((List.range' 2 253).map subnetIp).map ordinal.key).Nodup := by
        rw [List.map_map]
        refine List.Nodup.map (fun m n h => ?_) List.nodup_range'
        exact subnetIp_inj ((key_subnetIp m).symm.trans ((h : ordinal.key (subnetIp m) = _).trans (key_subnetIp n)))
      exact hscan.sublist ((List.filter_sublist.trans List.filter_sublist).map _)
    · exact List.nodup_nil
  · rintro k hk _ hk' rfl
    obtain ⟨route, hroute, rfl⟩ := List.mem_map.1 hk
    split at hk'
    · obtain ⟨ip, hip, hkey⟩ := List.mem_map.1 hk'
      have hno := (List.mem_filter.1 hip).2
      simp only [Bool.not_eq_true', List.any_eq_false] at hno
      exact hno route hroute (equals_iff.2 hkey)
    · nomatch hk'

/-- The own address is not probed. -/
theorem key_ne_of_mem_allTargets {selfIp ip : Text} {candidateIps : List Text} {scanFallback : Bool}
    (h : ip ∈ allTargets ordinal selfIp candidateIps scanFallback) : ordinal.key ip ≠ ordinal.key selfIp := by
  rcases List.mem_append.1 h with h | h
  · have hmem := (distinct_spec _).2.1 ip h
    simpa [OrdinalCase.equals] using (List.mem_filter.1 hmem).2
  · split at h
    · have hmem := (List.mem_filter.1 (List.mem_filter.1 h).1).2
      simpa [OrdinalCase.equals] using hmem
    · nomatch h

/-! ## The dictionary -/

/-- The dictionary has one peer under the key of its address. -/
structure Keyed (ordinal : OrdinalCase) (peers : Peers) : Prop where
  nodup : (peers.map Prod.fst).Nodup
  key : ∀ item ∈ peers, item.1 = ordinal.key item.2.virtualIp

theorem keyed_nil : Keyed ordinal [] := ⟨List.nodup_nil, fun _ h => nomatch h⟩

theorem Keyed.setPeer {peers : Peers} (h : Keyed ordinal peers) (peer : PeerInfo) : Keyed ordinal (setPeer ordinal peers peer) := by
  refine ⟨Dict.nodup_set h.nodup, fun item hitem => ?_⟩
  rcases Dict.mem_set hitem with rfl | hitem
  · rfl
  · exact h.key item hitem

/-- The addresses of the values differ. -/
theorem Keyed.once {peers : Peers} (h : Keyed ordinal peers) : ((peers.map (·.2)).map (fun p => ordinal.key p.virtualIp)).Nodup := by
  have hkeys : (peers.map (·.2)).map (fun p => ordinal.key p.virtualIp) = peers.map Prod.fst := by
    rw [List.map_map]
    exact List.map_congr_left fun item hitem => (h.key item hitem).symm
  rw [hkeys]
  exact h.nodup

/-- What the probes that completed left in the dictionary. -/
structure Probed (ordinal : OrdinalCase) (answer : Text → Option PeerInfo) (own : PeerInfo) (completed : List Text) (peers : Peers) : Prop where
  keyed : Keyed ordinal peers
  source : ∀ item ∈ peers, item.2 = own ∨ ∃ ip ∈ completed, answer ip = some item.2
  entry : ∀ ip ∈ completed, ∀ peer, answer ip = some peer →
    ∃ other ∈ completed, ∃ p, answer other = some p ∧ Dict.get peers (ordinal.key peer.virtualIp) = some p
  self : (∀ ip ∈ completed, ∀ peer, answer ip = some peer → ordinal.key peer.virtualIp ≠ ordinal.key own.virtualIp) →
    Dict.get peers (ordinal.key own.virtualIp) = some own

theorem probed_fold (deserialize : Text → Option PeerProbeResponse) (outcome : Text → ProbeOutcome) (own : PeerInfo) (completed : List Text) :
    Probed ordinal (fun ip => probeOne deserialize ip (outcome ip)) own completed
      (completed.foldl (probeTask ordinal deserialize outcome) (setPeer ordinal [] own)) := by
  induction completed using List.reverseRecOn with
  | nil =>
    refine ⟨keyed_nil.setPeer own, fun item hitem => ?_, (fun _ h => nomatch h), fun _ => Dict.get_set_self _ _ _⟩
    rw [List.foldl_nil, setPeer] at hitem
    rcases Dict.mem_set hitem with rfl | hitem
    · exact .inl rfl
    · nomatch hitem
  | append_singleton completed ip ih =>
    rw [List.foldl_append, List.foldl_cons, List.foldl_nil, probeTask]
    split
    · rename_i peer hpeer
      refine ⟨ih.keyed.setPeer peer, fun item hitem => ?_, fun other hother p hp => ?_, fun hno => ?_⟩
      · rcases Dict.mem_set hitem with rfl | hitem
        · exact .inr ⟨ip, by simp, hpeer⟩
        · refine (ih.source item hitem).imp_right ?_
          rintro ⟨other, hother, hp⟩
          exact ⟨other, List.mem_append_left _ hother, hp⟩
      · by_cases hkey : ordinal.key p.virtualIp = ordinal.key peer.virtualIp
        · exact ⟨ip, by simp, peer, hpeer, hkey ▸ Dict.get_set_self _ _ _⟩
        · rcases List.mem_append.1 hother with hother | hother
          · obtain ⟨other', hother', p', hp', hget⟩ := ih.entry other hother p hp
            exact ⟨other', List.mem_append_left _ hother', p', hp', (Dict.get_set_other _ _ hkey).trans hget⟩
          · obtain rfl := List.mem_singleton.1 hother
            exact absurd (congrArg (fun p : PeerInfo => ordinal.key p.virtualIp) (Option.some.inj (hp.symm.trans hpeer))) hkey
      · have hne := hno ip (by simp) peer hpeer
        rw [setPeer, Dict.get_set_other _ _ hne.symm]
        exact ih.self fun other hother => hno other (List.mem_append_left _ hother)
    · rename_i hnone
      refine ⟨ih.keyed, fun item hitem => ?_, fun other hother p hp => ?_, fun hno => ?_⟩
      · refine (ih.source item hitem).imp_right ?_
        rintro ⟨other, hother, hp⟩
        exact ⟨other, List.mem_append_left _ hother, hp⟩
      · rcases List.mem_append.1 hother with hother | hother
        · obtain ⟨other', hother', p', hp', hget⟩ := ih.entry other hother p hp
          exact ⟨other', List.mem_append_left _ hother', p', hp', hget⟩
        · obtain rfl := List.mem_singleton.1 hother
          exact absurd (hnone.symm.trans hp) nofun
      · exact ih.self fun other hother => hno other (List.mem_append_left _ hother)

/-- What the routes add to the dictionary. -/
structure Completed (ordinal : OrdinalCase) (routes : List Text) (peers completed : Peers) : Prop where
  keyed : Keyed ordinal completed
  keeps : ∀ key p, Dict.get peers key = some p → Dict.get completed key = some p
  source : ∀ item ∈ completed, item ∈ peers ∨ ∃ ip ∈ routes, item.2 = routedPeer ip
  added : ∀ ip ∈ routes, (Dict.get completed (ordinal.key ip)).isSome

theorem completed_fold {peers : Peers} (h : Keyed ordinal peers) (routes : List Text) :
    Completed ordinal routes peers (routes.foldl (fun peers ip => tryAddPeer ordinal peers (routedPeer ip)) peers) := by
  induction routes using List.reverseRecOn with
  | nil => exact ⟨h, fun _ _ hget => hget, fun _ hitem => .inl hitem, fun _ hip => nomatch hip⟩
  | append_singleton routes ip ih =>
    rw [List.foldl_append, List.foldl_cons, List.foldl_nil]
    generalize routes.foldl (fun peers ip => tryAddPeer ordinal peers (routedPeer ip)) peers = found at ih ⊢
    rw [tryAddPeer]
    split
    · rename_i p hp
      refine ⟨ih.keyed, ih.keeps, fun item hitem => (ih.source item hitem).imp_right ?_, fun other hother => ?_⟩
      · rintro ⟨other, hother, hp⟩
        exact ⟨other, List.mem_append_left _ hother, hp⟩
      · rcases List.mem_append.1 hother with hother | hother
        · exact ih.added other hother
        · rw [List.mem_singleton.1 hother, show ordinal.key ip = ordinal.key (routedPeer ip).virtualIp from rfl, hp]
          rfl
    · rename_i hnone
      have hother : ∀ key, key ≠ ordinal.key (routedPeer ip).virtualIp → Dict.get (setPeer ordinal found (routedPeer ip)) key = Dict.get found key :=
        fun key hkey => Dict.get_set_other found _ hkey
      refine ⟨ih.keyed.setPeer _, fun key p hget => ?_, fun item hitem => ?_, fun other hmem => ?_⟩
      · have hkept := ih.keeps key p hget
        rw [hother key fun heq => by rw [heq, hnone] at hkept; nomatch hkept]
        exact hkept
      · rcases Dict.mem_set hitem with rfl | hitem
        · exact .inr ⟨ip, by simp, rfl⟩
        · refine (ih.source item hitem).imp_right ?_
          rintro ⟨other, hother, hp⟩
          exact ⟨other, List.mem_append_left _ hother, hp⟩
      · by_cases hkey : ordinal.key other = ordinal.key (routedPeer ip).virtualIp
        · rw [hkey, setPeer, Dict.get_set_self]
          rfl
        · rcases List.mem_append.1 hmem with hmem | hmem
          · rw [hother _ hkey]
            exact ih.added other hmem
          · exact absurd (by rw [List.mem_singleton.1 hmem]; rfl) hkey

/-! ## The list -/

theorem orderPeers_perm (peers : List PeerInfo) : (orderPeers peers).Perm peers := List.mergeSort_perm _ _

/-- An address that is there once. -/
theorem countP_key {peers : List PeerInfo} (h : (peers.map (fun p => ordinal.key p.virtualIp)).Nodup) {ip : Text} {p : PeerInfo} (hp : p ∈ peers)
    (hkey : ordinal.key p.virtualIp = ordinal.key ip) : peers.countP (fun p => ordinal.equals p.virtualIp ip) = 1 := by
  have hcount := List.count_eq_one_of_mem h (List.mem_map.2 ⟨p, hp, hkey⟩)
  rw [List.count, List.countP_map] at hcount
  rw [← hcount]
  exact List.countP_congr fun q _ => by simp [OrdinalCase.equals]

/-- Addresses that are all among as many others are these in some order. -/
theorem reported_perm {answers : List Text} {f g : Text → Text} (hnodup : (answers.map f).Nodup)
    (hall : ∀ ip ∈ answers, ∃ other ∈ answers, g other = f ip) : (answers.map f).Perm (answers.map g) := by
  refine (List.subperm_of_subset hnodup fun k hk => ?_).perm_of_length_le (by simp)
  obtain ⟨ip, hip, rfl⟩ := List.mem_map.1 hk
  obtain ⟨other, hother, heq⟩ := hall ip hip
  exact List.mem_map.2 ⟨other, hother, heq⟩

theorem probeOne_eq_none {deserialize : Text → Option PeerProbeResponse} {ip : Text} {outcome : ProbeOutcome} :
    probeOne deserialize ip outcome = none ↔ outcome = .noAnswer := by
  cases outcome with
  | noAnswer => exact iff_of_true rfl rfl
  | answered elapsedMs line => exact iff_of_false nofun nofun

theorem probeOne_flags {deserialize : Text → Option PeerProbeResponse} {ip : Text} {outcome : ProbeOutcome} {peer : PeerInfo}
    (h : probeOne deserialize ip outcome = some peer) : peer.isReachable = true ∧ peer.isSelf = false := by
  cases outcome with
  | noAnswer => nomatch h
  | answered elapsedMs line =>
    obtain rfl := Option.some.inj h
    exact ⟨rfl, rfl⟩

section Discover

variable {deserialize : Text → Option PeerProbeResponse} {outcome : Text → ProbeOutcome}

theorem mem_answering {selfIp ip : Text} {candidateIps : List Text} {scanFallback : Bool} :
    ip ∈ answering ordinal outcome selfIp candidateIps scanFallback ↔
      ip ∈ allTargets ordinal (trimOr selfIp []) candidateIps scanFallback ∧ ∃ peer, probeOne deserialize ip (outcome ip) = some peer := by
  rw [answering, List.mem_filter, decide_eq_true_iff, ne_eq, ← @probeOne_eq_none deserialize ip, ← ne_eq,
    Option.ne_none_iff_exists']

/-- The reports of the probes that complete are of the addresses that answer, if every one of these is reported. -/
theorem reported_of_allReported {answers : List Text} (hnodup : (answers.map ordinal.key).Nodup)
    (hall : AllReported ordinal deserialize outcome answers) {ip : Text} (hip : ip ∈ answers) {peer : PeerInfo}
    (hpeer : probeOne deserialize ip (outcome ip) = some peer) : ∃ other ∈ answers, ordinal.key peer.virtualIp = ordinal.key other := by
  have hperm := reported_perm (f := ordinal.key) (g := fun ip => ordinal.key ((reportedIp deserialize outcome ip).getD [])) hnodup
    fun ip hip => by
      obtain ⟨other, hother, reported, hreported, heq⟩ := hall ip hip
      exact ⟨other, hother, by rw [hreported, Option.getD_some, equals_iff.1 heq]⟩
  have hmem : ordinal.key peer.virtualIp ∈ answers.map fun ip => ordinal.key ((reportedIp deserialize outcome ip).getD []) :=
    List.mem_map.2 ⟨ip, hip, by rw [reportedIp, hpeer]; rfl⟩
  obtain ⟨other, hother, heq⟩ := List.mem_map.1 (hperm.mem_iff.2 hmem)
  exact ⟨other, hother, heq.symm⟩

end Discover

end PeerProbeService

open PeerProbeService

/-- The list has the launcher itself and nobody else as the own entry, no address twice, every address that answered and every routed one
once, exactly when every address that answered is reported by a probe that answered. -/
theorem peers_listed_iff (ordinal : OrdinalCase) (deserialize : Text → Option PeerProbeResponse) (outcome : Text → ProbeOutcome)
    (selfIp username version : Text) (candidateIps : List Text) (scanFallback : Bool) (peers : List PeerInfo)
    (hself : isValidScblClientIp ordinal (trimOr selfIp []))
    (h : DiscoverReturns ordinal deserialize outcome selfIp username version candidateIps scanFallback peers) :
    ListsPeers ordinal selfIp candidateIps (answering ordinal outcome selfIp candidateIps scanFallback) peers ↔
      AllReported ordinal deserialize outcome (answering ordinal outcome selfIp candidateIps scanFallback) := by
  obtain ⟨completed, values, hcompleted, hvalues, rfl⟩ := h
  rw [discovered, if_pos hself] at hvalues
  have htrim : trimOr selfIp [] = trim selfIp := by
    rw [trimOr]
    split
    · rename_i hblank
      rw [trimOr, if_pos hblank] at hself
      nomatch hself
    · rfl
  let own := selfPeer (trimOr username "Player".toList) (trimOr selfIp []) (trimOr version [])
  have hprobed := @probed_fold ordinal deserialize outcome own completed
  have hdone := completed_fold hprobed.keyed (routeTargets ordinal (trimOr selfIp []) candidateIps)
  have hperm := (orderPeers_perm values).trans hvalues
  have hnodup : ((answering ordinal outcome selfIp candidateIps scanFallback).map ordinal.key).Nodup :=
    (nodup_allTargets (trimOr selfIp []) candidateIps scanFallback).sublist (List.filter_sublist.map ordinal.key)
  constructor
  · intro hlists ip hip
    obtain ⟨p, hp, hkey, hreachable⟩ := hlists.reachable ip hip
    obtain ⟨item, hitem, rfl⟩ := List.mem_map.1 (hperm.mem_iff.1 hp)
    rcases hdone.source item hitem with hitem | ⟨route, -, hroute⟩
    · rcases hprobed.source item hitem with hown | ⟨other, hother, hanswer⟩
      · -- the own address is not probed
        refine absurd ?_ (key_ne_of_mem_allTargets (List.mem_filter.1 hip).1)
        rw [← equals_iff.1 hkey, hown]
        rfl
      · refine ⟨other, (@mem_answering ordinal deserialize ..).2 ⟨hcompleted.mem_iff.1 hother, item.2, hanswer⟩, item.2.virtualIp, ?_, hkey⟩
        rw [reportedIp, hanswer]
        rfl
    · rw [hroute] at hreachable
      nomatch hreachable
  · intro hall
    have hanswers : ∀ ip ∈ completed, ∀ peer, probeOne deserialize ip (outcome ip) = some peer →
        ∃ other ∈ answering ordinal outcome selfIp candidateIps scanFallback, ordinal.key peer.virtualIp = ordinal.key other :=
      fun ip hip peer hpeer => reported_of_allReported hnodup hall
        ((@mem_answering ordinal deserialize ..).2 ⟨hcompleted.mem_iff.1 hip, peer, hpeer⟩) hpeer
    have hown := hdone.keeps _ _ (hprobed.self fun ip hip peer hpeer heq => by
      obtain ⟨other, hother, hkey⟩ := hanswers ip hip peer hpeer
      exact key_ne_of_mem_allTargets (List.mem_filter.1 hother).1 (hkey.symm.trans heq))
    have honce := hdone.keyed.once
    have honce' := ((hperm.map (fun p : PeerInfo => ordinal.key p.virtualIp)).nodup_iff).2 honce
    have hlisted : ∀ key p, Dict.get _ key = some p → p ∈ orderPeers values :=
      fun key p hget => hperm.mem_iff.2 (List.mem_map.2 ⟨(key, p), Dict.mem_of_get hget, rfl⟩)
    refine ⟨?_, honce', ?_, ?_⟩
    · have hfilter : (orderPeers values).filter (·.isSelf) = [own] := by
        refine List.perm_singleton.1 ((List.perm_ext_iff_of_nodup (honce'.of_map _ |>.filter _) (List.nodup_singleton own)).2 fun p => ?_)
        rw [List.mem_filter, List.mem_singleton]
        constructor
        · rintro ⟨hp, hisSelf⟩
          obtain ⟨item, hitem, rfl⟩ := List.mem_map.1 (hperm.mem_iff.1 hp)
          rcases hdone.source item hitem with hitem | ⟨route, -, hroute⟩
          · rcases hprobed.source item hitem with hown | ⟨other, -, hanswer⟩
            · exact hown
            · rw [(probeOne_flags hanswer).2] at hisSelf
              nomatch hisSelf
          · rw [hroute] at hisSelf
            nomatch hisSelf
        · rintro rfl
          exact ⟨hlisted _ _ hown, rfl⟩
      rw [hfilter, List.map_singleton, ← htrim]
      rfl
    · intro ip hip
      obtain ⟨other, hother, reported, hreported, heq⟩ := hall ip hip
      obtain ⟨htarget, peer, hpeer⟩ := (@mem_answering ordinal deserialize ..).1 hother
      obtain ⟨_, _, p, hp, hget⟩ := hprobed.entry other (hcompleted.mem_iff.2 htarget) peer hpeer
      rw [reportedIp, hpeer] at hreported
      obtain rfl := Option.some.inj hreported
      have hkept := hdone.keeps _ _ hget
      refine ⟨p, hlisted _ _ hkept, equals_iff.2 ?_, (probeOne_flags hp).1⟩
      exact (hdone.keyed.key _ (Dict.mem_of_get hkept)).symm.trans (equals_iff.1 heq)
    · intro candidate hcandidate hvalid
      by_cases hkey : ordinal.key (normalizeCandidateIp candidate) = ordinal.key (trimOr selfIp [])
      · exact countP_key honce' (hlisted _ _ hown) hkey.symm
      · obtain ⟨route, hroute, heq⟩ := route_of_candidate hcandidate hvalid hkey
        obtain ⟨p, hp⟩ := Option.isSome_iff_exists.1 (hdone.added route hroute)
        exact countP_key honce' (hlisted _ _ hp) ((hdone.keyed.key _ (Dict.mem_of_get hp)).symm.trans heq)

/-- A launcher and one other that answers with its own address. -/
theorem peers_listed_two :
    let deserialize : Text → Option PeerProbeResponse := fun _ => some ⟨some "Sam".toList, some "10.66.0.7".toList, none⟩
    let outcome : Text → ProbeOutcome := fun _ => .answered 4 (some "\x7b\x7d".toList)
    ∃ peers, DiscoverReturns ⟨Char.toUpper, fun _ _ => rfl⟩ deserialize outcome "10.66.0.5".toList [] [] ["10.66.0.7/24".toList] false peers ∧
      (ListsPeers ⟨Char.toUpper, fun _ _ => rfl⟩ "10.66.0.5".toList ["10.66.0.7/24".toList]
          (answering ⟨Char.toUpper, fun _ _ => rfl⟩ outcome "10.66.0.5".toList ["10.66.0.7/24".toList] false) peers ↔
        AllReported ⟨Char.toUpper, fun _ _ => rfl⟩ deserialize outcome
          (answering ⟨Char.toUpper, fun _ _ => rfl⟩ outcome "10.66.0.5".toList ["10.66.0.7/24".toList] false)) :=
  have h := ⟨_, _, .refl _, .refl _, rfl⟩
  ⟨_, h, peers_listed_iff _ _ _ "10.66.0.5".toList [] [] _ _ _ (by decide) h⟩

/-- A launcher that answers with the address of the one that asks takes its place in the list. -/
theorem peers_listed_false :
    ¬∀ (ordinal : OrdinalCase) (deserialize : Text → Option PeerProbeResponse) (outcome : Text → ProbeOutcome) (selfIp username version : Text)
        (candidateIps : List Text) (scanFallback : Bool) (peers : List PeerInfo), isValidScblClientIp ordinal (trimOr selfIp []) →
        DiscoverReturns ordinal deserialize outcome selfIp username version candidateIps scanFallback peers →
        ListsPeers ordinal selfIp candidateIps (answering ordinal outcome selfIp candidateIps scanFallback) peers := by
  intro h
  have hlists := h ⟨Char.toUpper, fun _ _ => rfl⟩ (fun _ => some ⟨none, some "10.66.0.5".toList, none⟩)
    (fun _ => .answered 4 (some "\x7b\x7d".toList)) "10.66.0.5".toList [] [] ["10.66.0.7".toList] false _ (by decide)
    ⟨["10.66.0.7".toList], _, by decide, .refl _, rfl⟩
  have hself := hlists.self
  rw [List.filter_eq_nil_iff.2] at hself
  · nomatch hself
  · intro p hp
    have hall : ∀ p ∈ (discovered ⟨Char.toUpper, fun _ _ => rfl⟩ (fun _ => some ⟨none, some "10.66.0.5".toList, none⟩)
        (fun _ => .answered 4 (some "\x7b\x7d".toList)) ["10.66.0.7".toList] "10.66.0.5".toList [] [] ["10.66.0.7".toList]).map (·.2),
        ¬p.isSelf = true := by decide
    exact hall p ((orderPeers_perm _).mem_iff.1 hp)

end Scbl.Launcher
