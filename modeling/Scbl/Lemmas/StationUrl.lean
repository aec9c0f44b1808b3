import Scbl.Lib.Panic
import Scbl.Rmc.Stream

/-!
# Printing station URLs

A station URL that was read has no separator in its parts, and its parameters do not repeat the address or the port. Printed in any
order of the parameters, it is read back with the same scheme, address, port and parameters (`StationURL.parse_display`).
-/

namespace Scbl.Rmc

open Scbl.Lib

/-- Two station URLs have the same parts; their parameters are the same map. -/
structure StationURL.Same (u u' : StationURL) : Prop where
  scheme : u.scheme = u'.scheme
  address : u.address = u'.address
  port : u.port = u'.port
  params : ∀ key, u.params.lookup key = u'.params.lookup key

/-- A station URL whose parts are told apart in print: the end of the scheme is found, and no part has the separator behind it. -/
structure StationURL.Printable (u : StationURL) : Prop where
  scheme : ∀ rest, splitOnce ":/".toList (u.scheme ++ ":/".toList ++ rest) = some (u.scheme, rest)
  address : ';' ∉ u.address
  keys : ∀ e ∈ u.params.entries, '=' ∉ e.1 ∧ ';' ∉ e.1 ∧ e.1 ≠ "address".toList ∧ e.1 ≠ "port".toList
  values : ∀ e ∈ u.params.entries, ';' ∉ e.2

namespace StationUrls

/-- Printed parameters are read as what they were printed from. -/
theorem mapM_printParam {entries : List (Text × Text)} (h : ∀ e ∈ entries, '=' ∉ e.1) :
    (entries.map (fun e => printParam e.1 e.2)).mapM (splitOnce "=".toList) = some entries := by
  induction entries with
  | nil => rfl
  | cons e entries ih =>
    have hsplit : splitOnce "=".toList (printParam e.1 e.2) = some (e.1, e.2) := by
      have happ := splitOnce_append [] e.2 (h e List.mem_cons_self)
      rwa [List.append_assoc] at happ
    rw [List.map_cons, List.mapM_cons, hsplit, ih (fun e' he' => h e' (List.mem_cons_of_mem _ he'))]
    rfl

/-- The port is read back. -/
theorem parseU16_port (port : UInt16) : parseU16 (toString port).toList = some port.toNat := by
  have hdigits : (toString port).toList = Nat.toDigits 10 port.toNat := String.toList_ofList
  rw [hdigits, parseU16, parseU32_toDigits, if_pos (Nat.lt_trans port.toNat_lt (by decide)), Option.filter_some,
    if_pos (decide_eq_true port.toNat_lt)]

/-- The printed parameters of a station URL, the address and the port first. -/
def printedParams (order : MapOrder) (u : StationURL) : List (Text × Text) :=
  ("address".toList, u.address) :: ("port".toList, (toString u.port).toList) :: (order.apply u.params.entries).map (fun e => (e.1, e.2))

theorem display_eq (order : MapOrder) (u : StationURL) :
    u.display order = u.scheme ++ ":/".toList ++ joinWith ';' ((printedParams order u).map (fun e => printParam e.1 e.2)) := by
  simp only [StationURL.display, printedParams, List.map_cons, List.map_map]
  rfl

/-- What is printed of the parameters has their separators only where they belong. -/
theorem separators_printedParams {u : StationURL} (hu : u.Printable) (order : MapOrder) :
    ∀ e ∈ printedParams order u, '=' ∉ e.1 ∧ ';' ∉ printParam e.1 e.2 := by
  have hparam : ∀ {key value : Text}, ';' ∉ key → ';' ∉ value → ';' ∉ printParam key value := by
    intro key value hkey hvalue
    rw [printParam, List.mem_append, List.mem_cons]
    rintro (h | h | h)
    · exact hkey h
    · exact absurd h (by decide)
    · exact hvalue h
  have hport : ';' ∉ (toString u.port).toList := by
    intro hmem
    have hdigits : (toString u.port).toList = Nat.toDigits 10 u.port.toNat := String.toList_ofList
    rw [hdigits] at hmem
    exact absurd (Nat.isDigit_of_mem_toDigits (by decide) (by decide) hmem) (by decide)
  intro e he
  rcases List.mem_cons.mp he with rfl | he
  · exact ⟨(by decide : '=' ∉ "address".toList), hparam (by decide : ';' ∉ "address".toList) hu.address⟩
  · rcases List.mem_cons.mp he with rfl | he
    · exact ⟨(by decide : '=' ∉ "port".toList), hparam (by decide : ';' ∉ "port".toList) hport⟩
    · obtain ⟨e', he', rfl⟩ := List.mem_map.mp he
      have hmem := (MapOrder.mem_apply _ _ _).mp he'
      exact ⟨(hu.keys e' hmem).1, hparam (hu.keys e' hmem).2.1 (hu.values e' hmem)⟩

/-- No key is printed twice. -/
theorem nodup_printedParams {u : StationURL} (hu : u.Printable) (order : MapOrder) : ((printedParams order u).map (·.1)).Nodup := by
  have hkeys : ((order.apply u.params.entries).map (fun e => e.1)).Nodup := by
    have hperm := (order.apply_perm u.params.entries).map (fun e : Sigma fun _ : Text => Text => e.1)
    exact hperm.nodup_iff.mpr u.params.nodupKeys
  rw [printedParams, List.map_cons, List.map_cons, List.map_map, List.nodup_cons, List.nodup_cons]
  refine ⟨fun h => ?_, fun h => ?_, hkeys⟩
  · rcases List.mem_cons.mp h with h | h
    · exact absurd h (by decide : "address".toList ≠ "port".toList)
    · obtain ⟨e, he, hkey⟩ := List.mem_map.mp h
      exact (hu.keys e ((MapOrder.mem_apply _ _ _).mp he)).2.2.1 hkey
  · obtain ⟨e, he, hkey⟩ := List.mem_map.mp h
    exact (hu.keys e ((MapOrder.mem_apply _ _ _).mp he)).2.2.2 hkey

/-- The parameters behind the address and the port are those of the station URL. -/
theorem lookup_printedParams {u : StationURL} (hu : u.Printable) (order : MapOrder) (key : Text) :
    (((insertAll (∅ : AList (fun _ : Text => Text)) (printedParams order u)).erase "address".toList).erase "port".toList).lookup key =
      u.params.lookup key := by
  have hnot : ∀ {key : Text}, key = "address".toList ∨ key = "port".toList → u.params.lookup key = none := by
    intro key hkey
    cases hl : u.params.lookup key with
    | none => rfl
    | some value =>
      have hkeys := hu.keys ⟨key, value⟩ (AList.mem_lookup_iff.mp hl)
      rcases hkey with rfl | rfl
      · exact absurd rfl hkeys.2.2.1
      · exact absurd rfl hkeys.2.2.2
  by_cases hport : key = "port".toList
  · rw [hport, AList.lookup_erase, hnot (Or.inr rfl)]
  rw [AList.lookup_erase_ne hport]
  by_cases haddress : key = "address".toList
  · rw [haddress, AList.lookup_erase, hnot (Or.inl rfl)]
  rw [AList.lookup_erase_ne haddress]
  cases hl : u.params.lookup key with
  | some value =>
    have hmem : (key, value) ∈ (order.apply u.params.entries).map (fun e => (e.1, e.2)) :=
      List.mem_map.mpr ⟨⟨key, value⟩, (MapOrder.mem_apply _ _ _).mpr (AList.mem_lookup_iff.mp hl), rfl⟩
    exact lookup_insertAll_of_mem (nodup_printedParams hu order) (List.mem_cons_of_mem _ (List.mem_cons_of_mem _ hmem)) _
  | none =>
    have hmem : key ∉ (printedParams order u).map (·.1) := by
      rw [printedParams, List.map_cons, List.map_cons, List.map_map, List.mem_cons, List.mem_cons, not_or, not_or]
      refine ⟨haddress, hport, fun h => ?_⟩
      obtain ⟨e, he, rfl⟩ := List.mem_map.mp h
      have hentry : e.2 ∈ u.params.lookup e.1 := AList.mem_lookup_iff.mpr ((MapOrder.mem_apply _ _ _).mp he)
      have hnone : u.params.lookup e.1 = none := hl
      rw [hnone] at hentry
      nomatch hentry
    exact (lookup_insertAll_of_notMem hmem _).trans (AList.lookup_empty key)

/-! ## What was read -/

/-- The parameters that are read have no separators of their own. -/
theorem separators_of_mapM {rest : Text} {entries : List (Text × Text)}
    (h : (rest.splitOn ';').mapM (splitOnce "=".toList) = some entries) : ∀ e ∈ entries, '=' ∉ e.1 ∧ ';' ∉ e.1 ∧ ';' ∉ e.2 := by
  have hpieces : ∀ pieces : List Text, (∀ piece ∈ pieces, ';' ∉ piece) → ∀ entries, pieces.mapM (splitOnce "=".toList) = some entries →
      ∀ e ∈ entries, '=' ∉ e.1 ∧ ';' ∉ e.1 ∧ ';' ∉ e.2 := by
    intro pieces hpieces
    induction pieces with
    | nil =>
      intro entries h
      rw [← Option.some.inj h]
      exact fun _ he => nomatch he
    | cons piece pieces ih =>
      intro entries h
      rw [List.mapM_cons] at h
      obtain ⟨e, he, h⟩ := Option.bind_eq_some_iff.mp h
      obtain ⟨es, hes, h⟩ := Option.bind_eq_some_iff.mp h
      rw [← Option.some.inj h]
      intro e' he'
      rcases List.mem_cons.mp he' with rfl | he'
      · have hpiece := hpieces piece List.mem_cons_self
        rw [(splitOnce_eq_some he).1, List.mem_append, List.mem_append, not_or, not_or] at hpiece
        exact ⟨notMem_of_splitOnce he, hpiece.1.1, hpiece.2⟩
      · exact ih (fun p hp => hpieces p (List.mem_cons_of_mem _ hp)) es hes e' he'
  exact hpieces _ (fun piece hpiece => notMem_of_mem_splitOn hpiece) entries h

end StationUrls

open StationUrls

/-- A station URL that was read can be told apart in print. -/
theorem StationURL.printable_of_parse {value : Text} {u : StationURL} (h : StationURL.parse value = .ok u) : u.Printable := by
  unfold StationURL.parse at h
  split at h
  · rename_i scheme rest hscheme
    split at h
    · rename_i entries hentries
      dsimp only at h
      split at h
      · rename_i address haddress
        split at h
        · rename_i port hport
          split at h
          · rename_i n hn
            obtain rfl := Except.ok.inj h
            have hsep := separators_of_mapM hentries
            have hfound : ∀ {key value : Text}, (insertAll (∅ : AList (fun _ : Text => Text)) entries).lookup key = some value →
                (key, value) ∈ entries := by
              intro key value hl
              rcases mem_of_lookup_insertAll hl with hmem | hl
              · exact hmem
              · nomatch hl
            have hparams : ∀ e ∈ (((insertAll (∅ : AList (fun _ : Text => Text)) entries).erase "address".toList).erase
                "port".toList).entries, e.1 ≠ "address".toList ∧ e.1 ≠ "port".toList ∧ (e.1, e.2) ∈ entries := by
              intro e he
              have hl := AList.mem_lookup_iff.mpr he
              by_cases hport : e.1 = "port".toList
              · rw [hport, AList.lookup_erase] at hl
                nomatch hl
              rw [AList.lookup_erase_ne hport] at hl
              by_cases haddress : e.1 = "address".toList
              · rw [haddress, AList.lookup_erase] at hl
                nomatch hl
              rw [AList.lookup_erase_ne haddress] at hl
              exact ⟨haddress, hport, hfound hl⟩
            exact ⟨(splitOnce_eq_some hscheme).2, (hsep _ (hfound haddress)).2.2,
              fun e he => ⟨(hsep _ (hparams e he).2.2).1, (hsep _ (hparams e he).2.2).2.1, (hparams e he).1, (hparams e he).2.1⟩,
              fun e he => (hsep _ (hparams e he).2.2).2.2⟩
          · nomatch h
        · nomatch h
      · nomatch h
    · nomatch h
  · nomatch h

/-- A printable station URL is read back, in whatever order its parameters are printed. -/
theorem StationURL.parse_display {u : StationURL} (hu : u.Printable) (order : MapOrder) :
    ∃ u', StationURL.parse (u.display order) = .ok u' ∧ u.Same u' := by
  have hsep := separators_printedParams hu order
  have hnodup := nodup_printedParams hu order
  have hsplit : (joinWith ';' ((printedParams order u).map (fun e => printParam e.1 e.2))).splitOn ';' =
      (printedParams order u).map (fun e => printParam e.1 e.2) := by
    refine splitOn_joinWith (by simp [printedParams]) fun t ht => ?_
    obtain ⟨e, he, rfl⟩ := List.mem_map.mp ht
    exact (hsep e he).2
  have hentries := mapM_printParam fun e he => (hsep e he).1
  have hlookup : ∀ {key value : Text}, (key, value) ∈ printedParams order u →
      (insertAll (∅ : AList (fun _ : Text => Text)) (printedParams order u)).lookup key = some value :=
    fun hmem => lookup_insertAll_of_mem hnodup hmem _
  have haddress : (insertAll (∅ : AList (fun _ : Text => Text)) (printedParams order u)).lookup "address".toList = some u.address :=
    hlookup List.mem_cons_self
  have hport : (insertAll (∅ : AList (fun _ : Text => Text)) (printedParams order u)).lookup "port".toList =
      some (toString u.port).toList := hlookup (List.mem_cons_of_mem _ List.mem_cons_self)
  refine ⟨{ scheme := u.scheme, address := u.address, port := u.port,
            params := ((insertAll ∅ (printedParams order u)).erase "address".toList).erase "port".toList }, ?_, rfl, rfl, rfl, ?_⟩
  · have hport' : ((insertAll ∅ (printedParams order u)).erase "address".toList).lookup "port".toList = some (toString u.port).toList :=
      (AList.lookup_erase_ne (by decide)).trans hport
    rw [display_eq, StationURL.parse, hu.scheme]
    dsimp only
    rw [hsplit, hentries]
    have hinserted : List.foldl (fun (params : AList (fun _ : Text => Text)) e => AList.insert e.1 e.2 params) ∅ (printedParams order u) =
        insertAll ∅ (printedParams order u) := rfl
    dsimp only
    rw [hinserted, haddress]
    dsimp only
    rw [hport']
    dsimp only
    rw [parseU16_port]
    dsimp only
    rw [UInt16.ofNat_toNat]
    rfl
  · exact fun key => (lookup_printedParams hu order key).symm

end Scbl.Rmc
