import Scbl.Lib.Run
import Scbl.Manager.ClientPublish
import Mathlib.Data.List.Lex

/-!
# The sections of the update manifest

The version and the package of the manifest are those of the last publication, its network bootstrap is that of the last
configuration that was synced, and its update announcement is the one that is stored, as far as it is for its version. Each writer
copies the sections of the others or derives them again, so this holds after every sequence of writers, and the version does not
decrease.
-/

namespace Scbl.Manager

open Scbl.Lib Json

/-- The package of a publication that succeeded. -/
def Outcome.package? : Outcome → Option ClientPackage
  | .published package => some package
  | _ => none

/-- The configuration of a sync that succeeded. -/
def syncedConfig? : Writer → Outcome → Option ServerConfig
  | .sync _ config, .synced => some config
  | _, _ => none

/-- The package that was published last. -/
def lastPublished (past : List (Transition UpdateRoot Writer Outcome)) : Option ClientPackage :=
  (past.filterMap (·.output.package?)).getLast?

/-- The configuration that was synced last. -/
def lastSynced (past : List (Transition UpdateRoot Writer Outcome)) : Option ServerConfig :=
  (past.filterMap (fun t => syncedConfig? t.input t.output)).getLast?

/-- The members of the manifest. -/
def manifestMembers (s : UpdateRoot) : Object := AnnouncementManager.readJson s clientManifest

def manifestVersion (s : UpdateRoot) : Option Text := (Dict.get (manifestMembers s) "version".toList).bind text?

/-- The sections of the manifest, after some calls. -/
structure SectionsKept (past : List (Transition UpdateRoot Writer Outcome)) (s : UpdateRoot) : Prop where
  published : ∀ package, lastPublished past = some package →
    Dict.get (manifestMembers s) "version".toList = some (.str package.version) ∧
    Dict.get (manifestMembers s) "fullPackage".toList = some (.str package.archive) ∧
    Dict.get (manifestMembers s) "fullPackageSha256".toList = some (.str package.sha256)
  bootstrap : Dict.get (manifestMembers s) bootstrapKey =
    (lastSynced past).map (fun config => (networkBootstrapPayload config).toJson)
  announcement : ∀ announcement, Dict.get (manifestMembers s) "updateAnnouncement".toList = some announcement →
    ∃ version, manifestVersion s = some version ∧ announcement = .object (AnnouncementManager.updatePayloadForVersion version s)

/-- The manifest has still a version, which has not decreased. -/
def NotBehind (s s' : UpdateRoot) : Prop :=
  ∀ version, manifestVersion s = some version →
    ∃ version', manifestVersion s' = some version' ∧ versionNumbers version ≤ versionNumbers version'

variable {s s' : UpdateRoot}

theorem manifestMembers_eq {members : Object} (h : s.files clientManifest = some (.object members)) :
    manifestMembers s = members := by
  rw [manifestMembers, AnnouncementManager.readJson, h]
  rfl

theorem manifestMembers_none (h : s.files clientManifest = none) : manifestMembers s = [] := by
  rw [manifestMembers, AnnouncementManager.readJson, h]
  rfl

/-! ### Announcements -/

namespace AnnouncementManager

/-- The file of a kind is that of the update announcement, or another one beside the manifest. -/
theorem pathFor_eq_ok {kind path : Text} (h : pathFor kind = .ok path) :
    path ≠ clientManifest ∧ (kind = "update".toList ↔ path = updateAnnouncement) := by
  have hkind : kind ∈ kinds := by
    by_contra hnot
    rw [pathFor, validateKind, refuseWhen, if_pos (by simpa using hnot)] at h
    nomatch h
  simp only [kinds, List.mem_cons, List.not_mem_nil, or_false] at hkind
  rcases hkind with rfl | rfl | rfl
  all_goals
    obtain rfl := Except.ok.inj h
    decide

/-- What an announcement that is stored leaves. -/
def Announces (s s' : UpdateRoot) : Prop :=
  ∃ kind path payload, pathFor kind = .ok path ∧
    s' = if kind = "update".toList then syncUpdateManifest (writeJson s path payload) else writeJson s path payload

theorem announces_store {kind path : Text} {payload : Object} {status : AnnouncementStatus} (hpath : pathFor kind = .ok path)
    (h : store kind path payload s = .ok (status, s')) : Announces s s' := by
  rw [store] at h
  obtain ⟨status', -, h⟩ := bind_eq_ok.mp h
  obtain ⟨-, rfl⟩ := Prod.mk.inj (Except.ok.inj h)
  exact ⟨kind, path, payload, hpath, rfl⟩

theorem announces_set {now kind title body titleEn bodyEn level version : Text} {enabled : Bool} {status : AnnouncementStatus}
    (h : set now kind title body titleEn bodyEn level version enabled s = .ok (status, s')) : Announces s s' := by
  obtain ⟨-, -, h⟩ := bind_eq_ok.mp h
  obtain ⟨title, -, h⟩ := bind_eq_ok.mp h
  obtain ⟨body, -, h⟩ := bind_eq_ok.mp h
  obtain ⟨titleEn, -, h⟩ := bind_eq_ok.mp h
  obtain ⟨bodyEn, -, h⟩ := bind_eq_ok.mp h
  obtain ⟨-, -, h⟩ := bind_eq_ok.mp h
  obtain ⟨payload, -, h⟩ := bind_eq_ok.mp h
  obtain ⟨path, hpath, h⟩ := bind_eq_ok.mp h
  exact announces_store hpath h

theorem announces_setEnabled {kind : Text} {enabled : Bool} {status : AnnouncementStatus}
    (h : setEnabled kind enabled s = .ok (status, s')) : Announces s s' := by
  obtain ⟨status', hstatus, h⟩ := bind_eq_ok.mp h
  obtain ⟨-, -, h⟩ := bind_eq_ok.mp h
  obtain ⟨path, hpath, hstatus⟩ := bind_eq_ok.mp hstatus
  obtain rfl := Except.ok.inj hstatus
  exact announces_store hpath h

theorem announces_clear {kind : Text} {status : AnnouncementStatus} (h : clear kind s = .ok (status, s')) : Announces s s' := by
  obtain ⟨-, -, h⟩ := bind_eq_ok.mp h
  obtain ⟨path, hpath, h⟩ := bind_eq_ok.mp h
  exact announces_store hpath h

/-- What an update announcement shows depends on its file only. -/
theorem updatePayload_congr {version : Text} (h : s'.files updateAnnouncement = s.files updateAnnouncement) :
    updatePayloadForVersion version s' = updatePayloadForVersion version s := by
  have hread : readJson s' updateAnnouncement = readJson s updateAnnouncement := by rw [readJson, h, readJson]
  rw [updatePayloadForVersion, hread, updatePayloadForVersion]

/-- A manifest with a version gets the update announcement for it. -/
theorem syncUpdateManifest_eq {members : Object} {version : Text} (hfile : s.files clientManifest = some (.object members))
    (hversion : Dict.get members "version".toList = some (.str version)) (hvalid : validVersion version = true) :
    syncUpdateManifest s = writeJson s clientManifest
      (Dict.set members "updateAnnouncement".toList (.object (updatePayloadForVersion version s))) := by
  have htext : (Dict.get members "version".toList).bind text? = some version := by rw [hversion]; rfl
  have hread : readJson s clientManifest = members := manifestMembers_eq hfile
  rw [syncUpdateManifest, hread, htext]
  exact if_pos hvalid

/-- Without a manifest there is nothing to mirror an announcement into. -/
theorem syncUpdateManifest_none (hfile : s.files clientManifest = none) : syncUpdateManifest s = s := by
  have hread : readJson s clientManifest = [] := manifestMembers_none hfile
  rw [syncUpdateManifest, hread]
  rfl

/-- An announcement does not make a manifest. -/
theorem Announces.none (h : Announces s s') (hfile : s.files clientManifest = none) : s'.files clientManifest = none := by
  obtain ⟨kind, path, payload, hpath, rfl⟩ := h
  have hbeside : (writeJson s path payload).files clientManifest = none :=
    (UpdateRoot.setFile_other s _ (pathFor_eq_ok hpath).1.symm).trans hfile
  split
  · rw [syncUpdateManifest_none hbeside, hbeside]
  · exact hbeside

/-- An announcement changes nothing of a manifest but the update announcement, which then is the one that is stored. -/
theorem Announces.manifest {members : Object} {version : Text} (h : Announces s s')
    (hfile : s.files clientManifest = some (.object members)) (hversion : Dict.get members "version".toList = some (.str version))
    (hvalid : validVersion version = true) :
    ∃ members', s'.files clientManifest = some (.object members') ∧
      (∀ key, key ≠ "updateAnnouncement".toList → Dict.get members' key = Dict.get members key) ∧
      (Dict.get members' "updateAnnouncement".toList = some (.object (updatePayloadForVersion version s')) ∨
        Dict.get members' "updateAnnouncement".toList = Dict.get members "updateAnnouncement".toList ∧
          s'.files updateAnnouncement = s.files updateAnnouncement) := by
  obtain ⟨kind, path, payload, hpath, rfl⟩ := h
  obtain ⟨hne, hkind⟩ := pathFor_eq_ok hpath
  have hbeside : (writeJson s path payload).files clientManifest = some (.object members) :=
    (UpdateRoot.setFile_other s _ hne.symm).trans hfile
  split
  · rw [syncUpdateManifest_eq hbeside hversion hvalid]
    refine ⟨_, UpdateRoot.setFile_self _ _ _, fun key hkey => Dict.get_set_other members _ hkey, Or.inl ?_⟩
    rw [Dict.get_set_self]
    refine congrArg (fun payload => some (Json.object payload)) (updatePayload_congr ?_).symm
    exact UpdateRoot.setFile_other _ _ (by decide)
  · rename_i hother
    exact ⟨members, hbeside, fun _ _ => rfl, Or.inr ⟨rfl, UpdateRoot.setFile_other s _ fun heq => hother (hkind.mpr heq.symm)⟩⟩

end AnnouncementManager

namespace SectionsAux

open AnnouncementManager (Announces announces_set announces_setEnabled announces_clear updatePayload_congr updateAnnouncement)

variable {unzip : Bytes → Option (List ZipInfo)} {loads : Bytes → Option Json} {sha256 : Bytes → Text}
variable {past : List (Transition UpdateRoot Writer Outcome)}

/-! ### Histories -/

theorem lastPublished_append (t : Transition UpdateRoot Writer Outcome) :
    lastPublished (past ++ [t]) = t.output.package?.or (lastPublished past) := by
  cases h : t.output.package? with
  | none => simp [lastPublished, h]
  | some package => simp [lastPublished, h]

theorem lastSynced_append (t : Transition UpdateRoot Writer Outcome) :
    lastSynced (past ++ [t]) = (syncedConfig? t.input t.output).or (lastSynced past) := by
  cases h : syncedConfig? t.input t.output with
  | none => simp [lastSynced, h]
  | some config => simp [lastSynced, h]

/-! ### Publications -/

/-- The version of a manifest of a package that is parsed is valid. -/
theorem validVersion_parseManifest {raw : Json} {version : Text} {declared : List (Text × Nat × Text)}
    (h : ClientPublisher.parseManifest raw = .ok (version, declared)) : validVersion version = true := by
  obtain ⟨members, -, h⟩ := bind_eq_ok.mp h
  obtain ⟨-, -, h⟩ := bind_eq_ok.mp h
  obtain ⟨version', -, h⟩ := bind_eq_ok.mp h
  obtain ⟨_, hvalid, h⟩ := bind_eq_ok.mp h
  have hversion : version' = version := by
    split at h
    · obtain ⟨declared', -, h⟩ := bind_eq_ok.mp h
      exact (Prod.mk.inj (Except.ok.inj h)).1
    · nomatch h
  subst hversion
  by_contra hnot
  rw [ClientPublisher.refuseWhen, if_pos (by simpa using hnot)] at hvalid
  nomatch hvalid

/-- The version of a package that is verified is valid. -/
theorem validVersion_verify {archive : Option Archive} {package : ClientPackage}
    (h : ClientPublisher.verify unzip loads sha256 archive = .ok package) : validVersion package.version = true := by
  obtain ⟨archive, -, h⟩ := bind_eq_ok.mp h
  obtain ⟨content, -, h⟩ := bind_eq_ok.mp h
  obtain ⟨-, -, h⟩ := bind_eq_ok.mp h
  obtain ⟨-, -, h⟩ := bind_eq_ok.mp h
  obtain ⟨bundle, -, h⟩ := bind_eq_ok.mp h
  obtain ⟨-, -, h⟩ := bind_eq_ok.mp h
  obtain ⟨names, -, h⟩ := bind_eq_ok.mp h
  obtain ⟨-, -, h⟩ := bind_eq_ok.mp h
  obtain ⟨manifest, -, h⟩ := bind_eq_ok.mp h
  obtain ⟨raw, -, h⟩ := bind_eq_ok.mp h
  obtain ⟨⟨version, declared⟩, hparse, h⟩ := bind_eq_ok.mp h
  obtain ⟨-, -, h⟩ := bind_eq_ok.mp h
  obtain ⟨-, -, h⟩ := bind_eq_ok.mp h
  obtain ⟨-, -, h⟩ := bind_eq_ok.mp h
  rw [← Except.ok.inj h]
  exact validVersion_parseManifest hparse

/-- What a publication that succeeds has checked, and what it leaves. -/
theorem publish_eq_ok {linux privileged force : Bool} {archive : Option Archive} {releaseNotes : Option (List Text)}
    {package : ClientPackage}
    (h : ClientPublisher.publish unzip loads sha256 linux privileged archive releaseNotes force s = .ok (package, s')) :
    ∃ verified, validVersion verified.version = true ∧
      ClientPublisher.compareCurrent verified.version (ClientPublisher.currentVersion s) force = .ok () ∧
      package = { verified with archive := ClientPublisher.releasePath verified.version } ∧
      s'.files = Function.update s.files clientManifest (some (.object (ClientPublisher.manifestPayload verified releaseNotes s))) := by
  obtain ⟨-, -, h⟩ := bind_eq_ok.mp h
  obtain ⟨verified, hverify, h⟩ := bind_eq_ok.mp h
  obtain ⟨_, hcompare, h⟩ := bind_eq_ok.mp h
  obtain ⟨rfl, rfl⟩ := Prod.mk.inj (Except.ok.inj h)
  exact ⟨verified, validVersion_verify hverify, hcompare, rfl, rfl⟩

/-- A version that is not refused is not below the current one. -/
theorem versionNumbers_le_of_compareCurrent {version current : Text} {force : Bool} (hcurrent : current ≠ [])
    (h : ClientPublisher.compareCurrent version current force = .ok ()) : versionNumbers current ≤ versionNumbers version := by
  rw [ClientPublisher.compareCurrent, if_pos hcurrent] at h
  obtain ⟨new, hnew, h⟩ := bind_eq_ok.mp h
  obtain ⟨old, hold, h⟩ := bind_eq_ok.mp h
  obtain ⟨_, hchecked, -⟩ := bind_eq_ok.mp h
  have hnumbers : ∀ {value : Text} {numbers : List Nat},
      ClientPublisher.demand .value (ClientPublisher.versionTuple value) = .ok numbers → numbers = versionNumbers value := by
    intro value numbers hdemand
    rw [ClientPublisher.versionTuple] at hdemand
    split at hdemand
    · exact (Except.ok.inj hdemand).symm
    · nomatch hdemand
  obtain rfl := hnumbers hnew
  obtain rfl := hnumbers hold
  by_contra hnot
  rw [ClientPublisher.refuseWhen, if_pos (decide_eq_true (not_le.mp hnot))] at hchecked
  nomatch hchecked

/-- The members of the manifest of a package. -/
theorem get_manifestPayload (package : ClientPackage) (releaseNotes : Option (List Text)) (s : UpdateRoot) :
    Dict.get (ClientPublisher.manifestPayload package releaseNotes s) "version".toList = some (.str package.version) ∧
    Dict.get (ClientPublisher.manifestPayload package releaseNotes s) "fullPackage".toList =
      some (.str (ClientPublisher.releasePath package.version)) ∧
    Dict.get (ClientPublisher.manifestPayload package releaseNotes s) "fullPackageSha256".toList = some (.str package.sha256) ∧
    Dict.get (ClientPublisher.manifestPayload package releaseNotes s) bootstrapKey =
      Dict.get (ClientPublisher.keptBootstrap (s.files clientManifest)) bootstrapKey ∧
    Dict.get (ClientPublisher.manifestPayload package releaseNotes s) "updateAnnouncement".toList =
      some (.object (AnnouncementManager.updatePayloadForVersion package.version s)) := by
  have hkept : ∀ key, key ≠ bootstrapKey → Dict.get (ClientPublisher.keptBootstrap (s.files clientManifest)) key = none := by
    intro key hkey
    rw [ClientPublisher.keptBootstrap]
    split
    · rw [Dict.get_cons, if_neg hkey.symm, Dict.get_nil]
    · rfl
  refine ⟨?_, ?_, ?_, ?_, ?_⟩
  · unfold ClientPublisher.manifestPayload
    rw [Dict.get_append, Dict.get_append]
    rfl
  · unfold ClientPublisher.manifestPayload
    rw [Dict.get_append, Dict.get_append]
    rfl
  · unfold ClientPublisher.manifestPayload
    rw [Dict.get_append, Dict.get_append]
    rfl
  · unfold ClientPublisher.manifestPayload
    rw [Dict.get_append, Dict.get_append]
    exact Option.or_none
  · unfold ClientPublisher.manifestPayload
    rw [Dict.get_append, Dict.get_append, hkept _ (by decide)]
    rfl

/-! ### The invariant -/

/-- There is no manifest and nothing was written into it, or there is one with a valid version, and with its sections. -/
def Kept (past : List (Transition UpdateRoot Writer Outcome)) (s : UpdateRoot) : Prop :=
  (s.files clientManifest = none ∧ lastPublished past = none ∧ lastSynced past = none) ∨
  ∃ members version, s.files clientManifest = some (.object members) ∧ Dict.get members "version".toList = some (.str version) ∧
    validVersion version = true ∧ SectionsKept past s

theorem kept_empty : Kept [] UpdateRoot.empty := Or.inl ⟨rfl, rfl, rfl⟩

theorem notBehind_refl (s : UpdateRoot) : NotBehind s s := fun version h => ⟨version, h, le_refl _⟩

theorem notBehind_trans {s'' : UpdateRoot} (h : NotBehind s s') (h' : NotBehind s' s'') : NotBehind s s'' := by
  intro version hversion
  obtain ⟨version', hversion', hle⟩ := h version hversion
  obtain ⟨version'', hversion'', hle'⟩ := h' version' hversion'
  exact ⟨version'', hversion'', hle.trans hle'⟩

/-- The version of a manifest. -/
theorem manifestVersion_eq {members : Object} {version : Text} (hfile : s.files clientManifest = some (.object members))
    (hversion : Dict.get members "version".toList = some (.str version)) : manifestVersion s = some version := by
  rw [manifestVersion, manifestMembers_eq hfile, hversion]
  rfl

/-- Without a manifest there is no version to fall behind. -/
theorem notBehind_of_none (hfile : s.files clientManifest = none) : NotBehind s s' := by
  intro version hversion
  rw [manifestVersion, manifestMembers_none hfile] at hversion
  nomatch hversion

/-- The sections are kept when there is nothing yet. -/
theorem Kept.sections (h : Kept past s) : SectionsKept past s := by
  rcases h with ⟨hfile, hpublished, hsynced⟩ | ⟨members, version, -, -, -, hkept⟩
  · refine ⟨fun package hpackage => ?_, ?_, fun announcement hget => ?_⟩
    · rw [hpublished] at hpackage
      nomatch hpackage
    · rw [manifestMembers_none hfile, hsynced]
      rfl
    · rw [manifestMembers_none hfile] at hget
      nomatch hget
  · exact hkept

/-- An announcement keeps the sections and the version. -/
theorem kept_of_announces {past' : List (Transition UpdateRoot Writer Outcome)} (h : Kept past s) (ha : Announces s s')
    (hpublished : lastPublished past' = lastPublished past) (hsynced : lastSynced past' = lastSynced past) :
    Kept past' s' ∧ NotBehind s s' := by
  rcases h with ⟨hfile, hnone, hnone'⟩ | ⟨members, version, hfile, hversion, hvalid, hkept⟩
  · exact ⟨Or.inl ⟨ha.none hfile, hpublished.trans hnone, hsynced.trans hnone'⟩, notBehind_of_none hfile⟩
  · obtain ⟨members', hfile', hother, hann⟩ := ha.manifest hfile hversion hvalid
    have hversion' : Dict.get members' "version".toList = some (.str version) := (hother _ (by decide)).trans hversion
    have hread := manifestMembers_eq hfile
    have hread' := manifestMembers_eq hfile'
    have hsame : manifestVersion s' = manifestVersion s := by
      rw [manifestVersion_eq hfile' hversion', manifestVersion_eq hfile hversion]
    refine ⟨Or.inr ⟨members', version, hfile', hversion', hvalid, ?_, ?_, ?_⟩, fun v hv => ⟨v, hsame.trans hv, le_refl _⟩⟩
    · intro package hpackage
      obtain ⟨h1, h2, h3⟩ := hkept.published package (hpublished.symm.trans hpackage)
      rw [hread] at h1 h2 h3
      rw [hread', hother _ (by decide), hother _ (by decide), hother _ (by decide)]
      exact ⟨h1, h2, h3⟩
    · rw [hread', hother _ (by decide), ← hread, hkept.bootstrap, hsynced]
    · intro announcement hget
      rw [hread'] at hget
      rcases hann with hstored | ⟨hcopied, hupdate⟩
      · rw [hstored] at hget
        exact ⟨version, manifestVersion_eq hfile' hversion', (Option.some.inj hget).symm⟩
      · rw [hcopied, ← hread] at hget
        obtain ⟨version', hversion', heq⟩ := hkept.announcement announcement hget
        exact ⟨version', hsame.trans hversion', heq.trans (by rw [updatePayload_congr hupdate])⟩

/-- A publication passes the network bootstrap on. -/
theorem get_keptBootstrap (h : Kept past s) : Dict.get (ClientPublisher.keptBootstrap (s.files clientManifest)) bootstrapKey =
    (lastSynced past).map (fun config => (networkBootstrapPayload config).toJson) := by
  have hbootstrap := h.sections.bootstrap
  rcases h with ⟨hfile, -, hsynced⟩ | ⟨members, version, hfile, -, -, -⟩
  · rw [hfile, hsynced]
    rfl
  · rw [manifestMembers_eq hfile] at hbootstrap
    have hget : ((some (Json.object members)).bind members?).bind (fun members => Dict.get members bootstrapKey) =
        (lastSynced past).map (fun config => (networkBootstrapPayload config).toJson) := hbootstrap
    rw [hfile, ClientPublisher.keptBootstrap, hget]
    cases lastSynced past with
    | none => rfl
    | some config => rfl

/-- A publication replaces the version and the package, keeps the network bootstrap, and derives the update announcement again. -/
theorem kept_of_publish {past' : List (Transition UpdateRoot Writer Outcome)} {linux privileged force : Bool} {archive : Option Archive}
    {releaseNotes : Option (List Text)} {package : ClientPackage} (h : Kept past s)
    (hpublish : ClientPublisher.publish unzip loads sha256 linux privileged archive releaseNotes force s = .ok (package, s'))
    (hpublished : lastPublished past' = some package) (hsynced : lastSynced past' = lastSynced past) :
    Kept past' s' ∧ NotBehind s s' := by
  obtain ⟨verified, hvalid, hcompare, rfl, hfiles⟩ := publish_eq_ok hpublish
  obtain ⟨hversion, hpath, hdigest, hkeeps, hannounced⟩ := get_manifestPayload verified releaseNotes s
  have hfile : s'.files clientManifest = some (.object (ClientPublisher.manifestPayload verified releaseNotes s)) := by
    rw [hfiles, Function.update_self]
  have hupdate : s'.files updateAnnouncement = s.files updateAnnouncement := by
    rw [hfiles]
    exact Function.update_of_ne (by decide) _ _
  have hread := manifestMembers_eq hfile
  have hnew := manifestVersion_eq hfile hversion
  refine ⟨Or.inr ⟨_, verified.version, hfile, hversion, hvalid, ?_, ?_, ?_⟩, ?_⟩
  · intro package hpackage
    obtain rfl := Option.some.inj (hpublished.symm.trans hpackage)
    rw [hread]
    exact ⟨hversion, hpath, hdigest⟩
  · rw [hread, hkeeps, get_keptBootstrap h, hsynced]
  · intro announcement hget
    rw [hread, hannounced] at hget
    exact ⟨verified.version, hnew, (Option.some.inj hget).symm.trans (by rw [updatePayload_congr hupdate])⟩
  · intro current hcurrent
    refine ⟨verified.version, hnew, ?_⟩
    rcases h with ⟨hnone, -, -⟩ | ⟨members, version, hold, hgot, hwas, -⟩
    · exact absurd hcurrent (by rw [manifestVersion, manifestMembers_none hnone]; exact nofun)
    · obtain rfl := Option.some.inj ((manifestVersion_eq hold hgot).symm.trans hcurrent)
      have hcurrent' : ClientPublisher.currentVersion s = version := by
        have htext : (Dict.get members "version".toList).bind text? = some version := by rw [hgot]; rfl
        have hmembers : ((some (Json.object members)).bind members?).getD [] = members := rfl
        rw [ClientPublisher.currentVersion, hold, hmembers, publishedVersion, htext]
        exact if_pos hwas
      rw [hcurrent'] at hcompare
      refine versionNumbers_le_of_compareCurrent ?_ hcompare
      rintro rfl
      exact absurd hwas (by decide)

/-- A sync writes the network bootstrap, and makes a manifest where there is none. -/
theorem kept_of_sync {past' : List (Transition UpdateRoot Writer Outcome)} {path : Text} {config : ServerConfig} (h : Kept past s)
    (hsync : syncNetworkBootstrap path config s = .ok s') (hpublished : lastPublished past' = lastPublished past)
    (hsynced : lastSynced past' = some config) : Kept past' s' ∧ NotBehind s s' := by
  rcases h with ⟨hfile, hnone, -⟩ | ⟨members, version, hfile, hversion, hvalid, hkept⟩
  · rw [syncNetworkBootstrap, hfile] at hsync
    obtain rfl := Except.ok.inj hsync
    have hfile' : (s.setFile clientManifest (.object (mergeNetworkBootstrap initialManifest config))).files clientManifest = _ :=
      UpdateRoot.setFile_self _ _ _
    have hread := manifestMembers_eq hfile'
    refine ⟨Or.inr ⟨_, "0.0.0".toList, hfile', ?_, by decide +kernel, ?_, ?_, ?_⟩, notBehind_of_none hfile⟩
    · exact Dict.get_set_other _ _ (by decide)
    · intro package hpackage
      exact nomatch (hpublished.trans hnone).symm.trans hpackage
    · rw [hsynced]
      refine (congrArg (Dict.get · bootstrapKey) hread).trans ?_
      exact Dict.get_set_self _ _ _
    · intro announcement hget
      have hget' := (congrArg (Dict.get · "updateAnnouncement".toList) hread).symm.trans hget
      exact nomatch (Dict.get_set_other initialManifest _ (by decide)).symm.trans hget'
  · have hne : members ≠ [] := by
      rintro rfl
      nomatch hversion
    rw [syncNetworkBootstrap, hfile] at hsync
    obtain rfl : s.setFile clientManifest (.object (mergeNetworkBootstrap members config)) = s' := by
      rw [← Except.ok.inj hsync, if_neg hne]
    have hfile' := UpdateRoot.setFile_self s clientManifest (.object (mergeNetworkBootstrap members config))
    have hother : ∀ key, key ≠ bootstrapKey → Dict.get (mergeNetworkBootstrap members config) key = Dict.get members key :=
      fun key hkey => Dict.get_set_other members _ hkey
    have hversion' := (hother "version".toList (by decide)).trans hversion
    have hread := manifestMembers_eq hfile
    have hread' := manifestMembers_eq hfile'
    have hupdate : (s.setFile clientManifest (.object (mergeNetworkBootstrap members config))).files updateAnnouncement =
        s.files updateAnnouncement := UpdateRoot.setFile_other s _ (by decide)
    have hsame := (manifestVersion_eq hfile' hversion').trans (manifestVersion_eq hfile hversion).symm
    refine ⟨Or.inr ⟨_, version, hfile', hversion', hvalid, ?_, ?_, ?_⟩, fun v hv => ⟨v, hsame.trans hv, le_refl _⟩⟩
    · intro package hpackage
      obtain ⟨h1, h2, h3⟩ := hkept.published package (hpublished.symm.trans hpackage)
      rw [hread] at h1 h2 h3
      rw [hread', hother _ (by decide), hother _ (by decide), hother _ (by decide)]
      exact ⟨h1, h2, h3⟩
    · rw [hread', hsynced]
      exact Dict.get_set_self _ _ _
    · intro announcement hget
      rw [hread', hother _ (by decide), ← hread] at hget
      obtain ⟨version', hversion', heq⟩ := hkept.announcement announcement hget
      exact ⟨version', hsame.trans hversion', heq.trans (by rw [updatePayload_congr hupdate])⟩

/-- One call keeps the sections, whether it succeeds or raises. -/
theorem kept_write (h : Kept past s) (writer : Writer) :
    Kept (past ++ [⟨s, writer, (write unzip loads sha256 s writer).2, (write unzip loads sha256 s writer).1⟩])
      (write unzip loads sha256 s writer).1 ∧ NotBehind s (write unzip loads sha256 s writer).1 := by
  -- what raises has changed nothing
  have hraised : Kept (past ++ [⟨s, writer, .raised, s⟩]) s ∧ NotBehind s s := by
    have hpublished : lastPublished (past ++ [⟨s, writer, .raised, s⟩]) = lastPublished past := lastPublished_append _
    have hsynced : lastSynced (past ++ [⟨s, writer, .raised, s⟩]) = lastSynced past := by
      rw [lastSynced_append]
      cases writer <;> rfl
    refine ⟨?_, notBehind_refl s⟩
    rcases h with ⟨hfile, hnone, hnone'⟩ | ⟨members, version, hfile, hversion, hvalid, hkept⟩
    · exact Or.inl ⟨hfile, hpublished.trans hnone, hsynced.trans hnone'⟩
    · exact Or.inr ⟨members, version, hfile, hversion, hvalid,
        ⟨fun package hpackage => hkept.published package (hpublished.symm.trans hpackage), hkept.bootstrap.trans (by rw [hsynced]),
          hkept.announcement⟩⟩
  have hannounced : ∀ status s', syncedConfig? writer (.announced status) = none → Announces s s' →
      Kept (past ++ [⟨s, writer, .announced status, s'⟩]) s' ∧ NotBehind s s' := fun status s' hconfig ha =>
    kept_of_announces h ha (lastPublished_append _) ((lastSynced_append _).trans (by rw [hconfig]; rfl))
  cases writer with
  | publish linux privileged archive releaseNotes force =>
    rw [write]
    cases hresult : ClientPublisher.publish unzip loads sha256 linux privileged archive releaseNotes force s with
    | error e => exact hraised
    | ok result => exact kept_of_publish h hresult (lastPublished_append _) (lastSynced_append _)
  | set now kind title body titleEn bodyEn level version enabled =>
    rw [write]
    cases hresult : AnnouncementManager.set now kind title body titleEn bodyEn level version enabled s with
    | error e => exact hraised
    | ok result => exact hannounced result.1 result.2 rfl (announces_set hresult)
  | setEnabled kind enabled =>
    rw [write]
    cases hresult : AnnouncementManager.setEnabled kind enabled s with
    | error e => exact hraised
    | ok result => exact hannounced result.1 result.2 rfl (announces_setEnabled hresult)
  | clear kind =>
    rw [write]
    cases hresult : AnnouncementManager.clear kind s with
    | error e => exact hraised
    | ok result => exact hannounced result.1 result.2 rfl (announces_clear hresult)
  | sync path config =>
    rw [write]
    cases hresult : syncNetworkBootstrap path config s with
    | error e => exact hraised
    | ok s' => exact kept_of_sync h hresult (lastPublished_append _) (lastSynced_append _)

/-- Calls that follow keep the version from decreasing. -/
theorem notBehind_run (h : Kept past s) (writers : List Writer) : NotBehind s (run (write unzip loads sha256) s writers) := by
  induction writers generalizing past s with
  | nil => exact notBehind_refl s
  | cons writer writers ih =>
    obtain ⟨hkept, hstep⟩ := kept_write h writer
    exact notBehind_trans hstep (ih hkept)

/-- The invariant holds after every run. -/
theorem kept_run (unzip : Bytes → Option (List ZipInfo)) (loads : Bytes → Option Json) (sha256 : Bytes → Text) (writers : List Writer) :
    Kept (trace (write unzip loads sha256) UpdateRoot.empty writers) (run (write unzip loads sha256) UpdateRoot.empty writers) :=
  run_history (P := Kept) (fun _ _ writer h => (kept_write h writer).1) kept_empty writers

end SectionsAux

open SectionsAux

/-- After every sequence of writers on an empty root, the version, the package and its digest are those of the last publication, the
network bootstrap is that of the last configuration that was synced, the update announcement is the stored one for the version, and
the version has not decreased since any point of the run. -/
theorem manifest_sections_kept (unzip : Bytes → Option (List ZipInfo)) (loads : Bytes → Option Json) (sha256 : Bytes → Text)
    (writers : List Writer) :
    SectionsKept (trace (write unzip loads sha256) UpdateRoot.empty writers) (run (write unzip loads sha256) UpdateRoot.empty writers) ∧
    ∀ earlier later, writers = earlier ++ later →
      NotBehind (run (write unzip loads sha256) UpdateRoot.empty earlier) (run (write unzip loads sha256) UpdateRoot.empty writers) := by
  refine ⟨(kept_run unzip loads sha256 writers).sections, ?_⟩
  rintro earlier later rfl
  rw [run_append]
  exact notBehind_run (kept_run unzip loads sha256 earlier) later

end Scbl.Manager
