import Scbl.Lemmas.StationUrl
import Scbl.Lemmas.Statements
import Scbl.Theorems.Isolation

/-!
# Stored station URLs

The station URLs of a request were read from texts, and so each of them is read back from its print. They are stored in print, an
address replaced by the private one that the user is seen at, and this too is read back.
-/

namespace Scbl.Services.GameSessionService

open Scbl.Lib Scbl.Rmc Scbl.Prudp Scbl.Storage Scbl.Rmc.StationUrls

namespace StationUrls

/-- The items that are read meet what every item that is read meets. -/
theorem forall_of_readItems {α : Type} {read : Reader α} {P : α → Prop} (hread : ∀ rdr a rest, read rdr = .ok (a, rest) → P a)
    {n : Nat} {rdr rest : Bytes} {items : List α} (h : readItems read n rdr = .ok (items, rest)) : ∀ a ∈ items, P a := by
  induction n generalizing rdr rest items with
  | zero =>
    rw [← (Prod.mk.inj (Except.ok.inj h)).1]
    exact fun _ ha => nomatch ha
  | succ n ih =>
    obtain ⟨⟨item, r1⟩, hitem, h⟩ := bind_eq_ok.mp h
    obtain ⟨⟨more, r2⟩, hmore, h⟩ := bind_eq_ok.mp h
    rw [← (Prod.mk.inj (Except.ok.inj h)).1]
    intro a ha
    rcases List.mem_cons.mp ha with rfl | ha
    · exact hread _ _ _ hitem
    · exact ih hmore a ha

/-- A station URL is read from a text that is one. -/
theorem printable_of_fromStream {rdr rest : Bytes} {u : StationURL} (h : StationURL.fromStream rdr = .ok (u, rest)) : u.Printable := by
  obtain ⟨⟨text, r⟩, -, h⟩ := bind_eq_ok.mp h
  dsimp only at h
  split at h
  · rename_i url hurl
    rw [← (Prod.mk.inj (Except.ok.inj h)).1]
    exact StationURL.printable_of_parse hurl
  · nomatch h

/-- The station URLs of a request were read from texts. -/
theorem printable_of_request {parameters : Bytes} {urls : List StationURL}
    (h : (Ty.qlist .stationURL).fromBytes parameters = .ok urls) : ∀ u ∈ urls, u.Printable := by
  unfold Ty.fromBytes at h
  cases hr : (Ty.qlist .stationURL).read parameters with
  | error e =>
    rw [hr] at h
    nomatch h
  | ok result =>
    rw [hr] at h
    obtain ⟨⟨len, r⟩, -, hitems⟩ := bind_eq_ok.mp hr
    rw [← Except.ok.inj h]
    exact forall_of_readItems (fun _ _ _ hu => printable_of_fromStream hu) hitems

/-- An address of version 4 is printed without a semicolon. -/
theorem semicolon_notMem_ipv4Text (octets : List Nat) : ';' ∉ ipv4Text octets := by
  have hdigits : ∀ n, ';' ∉ Nat.toDigits 10 n := fun n hmem =>
    absurd (Nat.isDigit_of_mem_toDigits (by decide) (by decide) hmem) (by decide)
  cases octets with
  | nil => exact List.not_mem_nil
  | cons n octets =>
    rw [ipv4Text, List.map_cons, joinWith, List.mem_append]
    rintro (h | h)
    · exact hdigits n h
    · obtain ⟨t, ht, hmem⟩ := List.mem_flatMap.mp h
      obtain ⟨m, -, rfl⟩ := List.mem_map.mp ht
      rcases List.mem_cons.mp hmem with h | h
      · exact absurd h (by decide)
      · exact hdigits m h

/-- A station URL with another address can be told apart in print. -/
theorem printable_normalizedUrl {u : StationURL} (hu : u.Printable) (observedAddress : Text) :
    (normalizedUrl observedAddress u).Printable := by
  unfold normalizedUrl
  split
  · rename_i address h
    refine ⟨hu.scheme, ?_, hu.keys, hu.values⟩
    obtain ⟨observed, -, h⟩ := Option.bind_eq_some_iff.mp h
    split at h
    · nomatch h
    · obtain ⟨registered, -, h⟩ := Option.bind_eq_some_iff.mp h
      split at h
      · rw [← Option.some.inj h]
        exact semicolon_notMem_ipv4Text observed
      · nomatch h
  · exact hu

/-- The endpoints after those of a user were registered. -/
theorem urls_of_registerUrls (userId : Nat) (urls : List Text) (db : Database) :
    ∀ row ∈ (Storage.registerUrls userId urls db).1.stationUrls,
      row ∈ db.stationUrls ∧ ((Storage.registerUrls userId urls db).2 = .ok () → row.userId ≠ userId) ∨ row.url ∈ urls := by
  refine transaction_of_wp (P := fun out : Database × Except StorageError Unit =>
    ∀ row ∈ out.1.stationUrls, row ∈ db.stationUrls ∧ (out.2 = .ok () → row.userId ≠ userId) ∨ row.url ∈ urls) ?_
  rw [wp_bind]
  have hfail : ∀ e : StorageError, ∀ row ∈ db.stationUrls,
      row ∈ db.stationUrls ∧ ((Except.error e : Except StorageError Unit) = .ok () → row.userId ≠ userId) ∨ row.url ∈ urls :=
    fun e row hrow => Or.inl ⟨hrow, fun h => nomatch h⟩
  refine wp_statement_failing hfail fun db₁ hdb₁ => ?_
  have hkept : ∀ row ∈ db₁.stationUrls, row ∈ db.stationUrls ∧ row.userId ≠ userId ∨ row.url ∈ urls := by
    intro row hrow
    rw [hdb₁] at hrow
    obtain ⟨hmem, hne⟩ := List.mem_filter.mp hrow
    exact Or.inl ⟨hmem, by simpa using hne⟩
  refine wp_mono (wp_forM_done
    (fun (_ : List Text) (s' : Database) => ∀ row ∈ s'.stationUrls, row ∈ db.stationUrls ∧ row.userId ≠ userId ∨ row.url ∈ urls)
    (fun done url rest s' hl hs' => ?_) hkept) ?_
  · refine wp_statement_failing hfail fun db₂ hdb₂ row hrow => ?_
    rw [hdb₂, Tables.insertStationUrl] at hrow
    split at hrow
    · exact hs' row hrow
    · rcases List.mem_append.mp hrow with hrow | hrow
      · exact hs' row hrow
      · rw [List.mem_singleton.mp hrow]
        have hurl : url ∈ urls.dedup := hl ▸ List.mem_append_right done List.mem_cons_self
        exact Or.inr (List.mem_dedup.mp hurl)
  · intro _ s' hs' row hrow
    exact (hs' row hrow).imp_left fun hrow => ⟨hrow.1, fun _ => hrow.2⟩

end StationUrls

open StationUrls

/-- A stored text is a station URL that was registered, its address possibly replaced by the one its user was seen at. -/
def RegisteredAs (observedAddress : Text) (u : StationURL) (url : Text) : Prop :=
  ∃ u' address, StationURL.parse url = .ok u' ∧ { u with address }.Same u' ∧
    (address = u.address ∨ observedPrivateIpv4Override u.address observedAddress = some address)

/-- A registered station URL is stored as one. -/
theorem registeredAs_normalizedUrl {u : StationURL} (hu : u.Printable) (observedAddress : Text) (order : MapOrder) :
    RegisteredAs observedAddress u ((normalizedUrl observedAddress u).display order) := by
  obtain ⟨u', hparse, hsame⟩ := StationURL.parse_display (printable_normalizedUrl hu observedAddress) order
  unfold normalizedUrl at hparse hsame
  cases hoverride : observedPrivateIpv4Override u.address observedAddress with
  | some address =>
    rw [hoverride] at hsame hparse
    exact ⟨u', address, by rw [normalizedUrl, hoverride]; exact hparse, hsame, Or.inr hoverride⟩
  | none =>
    rw [hoverride] at hsame hparse
    exact ⟨u', u.address, by rw [normalizedUrl, hoverride]; exact hparse, hsame, Or.inl rfl⟩

/-- The station URLs of a user who is logged in are printed and stored. -/
theorem registerUrls_eq (urls : List StationURL) (c : Caller) {st : CallState} {userId : UInt32} (h : st.userId = some userId) :
    registerUrls urls c st = stored (fun _ => Storage.registerUrls userId.toNat
      (urls.map (fun u => (normalizedUrl c.info.address.ip u).display c.env.mapOrder))) c st :=
  loginRequired_bind h _

/-- The station URLs of a user who is logged in are stored. -/
theorem registerUrls_stored {urls : List StationURL} {c : Caller} {st : CallState} {userId : UInt32} {texts : List Text}
    (h : st.userId = some userId)
    (htexts : urls.map (fun u => (normalizedUrl c.info.address.ip u).display c.env.mapOrder) = texts)
    (hresult : (Storage.registerUrls userId.toNat texts st.db).2 = .ok ()) :
    ∃ st', registerUrls urls c st = .ok (st', .ok ()) ∧ st'.db = (Storage.registerUrls userId.toNat texts st.db).1 := by
  rw [registerUrls_eq urls c h, htexts]
  rw [stored_eq, hresult]
  exact ⟨_, rfl, rfl⟩

/-- Station URLs are stable under printing, and so is every station URL that is stored: it was there before, or it is one of the request
with its address possibly replaced. -/
theorem stationUrls_stable :
    (∀ (value : Text) (u : StationURL), StationURL.parse value = .ok u →
      ∀ order : MapOrder, ∃ u', StationURL.parse (u.display order) = .ok u' ∧ u.Same u') ∧
    ∀ (c : Caller) (st st' : CallState) (parameters : Bytes) (urls : List StationURL) (result : Except Rmc.Error Unit),
      (Ty.qlist .stationURL).fromBytes parameters = .ok urls → registerUrls urls c st = .ok (st', result) →
      ∀ row ∈ st'.db.stationUrls,
        row ∈ st.db.stationUrls ∧ (result = .ok () → ∀ userId, st.userId = some userId → row.userId ≠ userId.toNat) ∨
          ∃ u ∈ urls, RegisteredAs c.info.address.ip u row.url := by
  refine ⟨fun value u h order => StationURL.parse_display (StationURL.printable_of_parse h) order, ?_⟩
  intro c st st' parameters urls result hurls h row hrow
  have hprintable := printable_of_request hurls
  cases huser : st.userId with
  | none =>
    have hend : registerUrls urls c st = .ok (st, .error .accessDenied) := loginRequired_bind_none huser _
    obtain ⟨rfl, rfl⟩ := Prod.mk.inj (Except.ok.inj (hend.symm.trans h))
    exact Or.inl ⟨hrow, fun h => nomatch h⟩
  | some userId =>
    obtain ⟨rfl, rfl⟩ := Prod.mk.inj (Except.ok.inj ((registerUrls_eq urls c huser).symm.trans h))
    rcases urls_of_registerUrls userId.toNat _ st.db row hrow with ⟨hmem, hne⟩ | hurl
    · refine Or.inl ⟨hmem, fun hresult userId' huser' => ?_⟩
      rw [← Option.some.inj huser']
      exact hne (ok_of_mapError hresult)
    · obtain ⟨u, hu, hurl⟩ := List.mem_map.mp hurl
      rw [← hurl]
      exact Or.inr ⟨u, hu, registeredAs_normalizedUrl (hprintable u hu) _ _⟩

/-- A station URL of an address that its user is not seen at. -/
def registered : StationURL where
  scheme := "prudps".toList
  address := "10.66.0.2".toList
  port := 13000
  params := (∅ : AList (fun _ : Text => Text)).insert "sid".toList "".toList

/-- A request with one station URL. -/
def oneUrl : Bytes := putU32 1 ++ putU16 42 ++ Text.toBytes "prudps:/port=13000;address=10.66.0.2;sid=".toList ++ [0]

/-- A client that is seen at a private address. -/
def lanCaller : Caller := { caller with info := ClientInfo.new 0 7 { ip := "192.168.1.5".toList, port := 13000 } }

/-- What the station URL is stored as. -/
def lanUrl : Text := "prudps:/address=192.168.1.5;port=13000;sid=".toList

/-- A station URL is read, printed and read; it is stored with the address its user is seen at. -/
theorem stationUrls_stable_lan :
    (∃ u', StationURL.parse (registered.display .listed) = .ok u' ∧ registered.Same u') ∧
      ∃ st' row, registerUrls [registered] lanCaller outsider = .ok (st', .ok ()) ∧ row ∈ st'.db.stationUrls ∧
        row.url = lanUrl ∧ RegisteredAs lanCaller.info.address.ip registered row.url := by
  obtain ⟨hstable, hstored⟩ := stationUrls_stable
  refine ⟨hstable "prudps:/port=13000;address=10.66.0.2;sid=".toList registered rfl .listed, ?_⟩
  have hurls : (Ty.qlist .stationURL).fromBytes oneUrl = .ok [registered] := rfl
  have hprint : [registered].map (fun u => (normalizedUrl lanCaller.info.address.ip u).display lanCaller.env.mapOrder) = [lanUrl] := by
    decide +kernel
  have hresult : (Storage.registerUrls (1001 : UInt32).toNat [lanUrl] outsider.db).2 = .ok () := by decide +kernel
  have hrow : { userId := 1001, url := lanUrl } ∈ (Storage.registerUrls (1001 : UInt32).toNat [lanUrl] outsider.db).1.stationUrls := by
    decide +kernel
  have hnew : { userId := 1001, url := lanUrl } ∉ outsider.db.stationUrls := by decide +kernel
  obtain ⟨st', hcall, hdb⟩ := registerUrls_stored (show outsider.userId = some 1001 from rfl) hprint hresult
  rw [← hdb] at hrow
  refine ⟨st', { userId := 1001, url := lanUrl }, hcall, hrow, rfl, ?_⟩
  rcases hstored lanCaller outsider st' oneUrl [registered] (.ok ()) hurls hcall _ hrow with hold | ⟨u, hu, hregistered⟩
  · exact absurd hold.1 hnew
  · rw [List.mem_singleton.mp hu] at hregistered
    exact hregistered

end Scbl.Services.GameSessionService
