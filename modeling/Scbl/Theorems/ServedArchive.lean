import Scbl.Manager.ClientPublishSteps
import Scbl.Theorems.UpdateManifest

/-!
# The archive that is served

The archive of a version is replaced before the manifest is. Where the manifest already names it, the publication can stop between the two.
-/

namespace Scbl.Manager

open Scbl.Lib Json

/-- A text in the manifest in place. -/
def manifestText (s : UpdateRoot) (key : Text) : Option Text := (Dict.get (manifestMembers s) key).bind text?

/-- The same digest, in letters of either case. -/
def SameDigest (a b : Text) : Prop := a.map Char.toLower = b.map Char.toLower

/-- The package that the manifest in place names has the hash that is recorded. -/
def ServesRecorded (sha256 : Bytes → Text) (s : UpdateRoot) : Prop :=
  ∀ path, manifestText s "fullPackage".toList = some path →
    ∃ content recorded, s.releases path = some content ∧ manifestText s "fullPackageSha256".toList = some recorded ∧
      SameDigest recorded (sha256 content)

/-- The package is verified, and the manifest in place names its path, where another archive is. -/
def ReplacesServed (unzip : Bytes → Option (List ZipInfo)) (loads : Bytes → Option Json) (sha256 : Bytes → Text) (linux privileged : Bool)
    (archive : Option Archive) (s : UpdateRoot) : Prop :=
  ∃ package content, ClientPublisher.requireRoot linux privileged = .ok () ∧ ClientPublisher.verify unzip loads sha256 archive = .ok package ∧
    manifestText s "fullPackage".toList = some (ClientPublisher.releasePath package.version) ∧
    s.releases (ClientPublisher.releasePath package.version) = some content ∧ ¬SameDigest (sha256 content) package.sha256

namespace ClientPublisher

open SectionsAux

variable {unzip : Bytes → Option (List ZipInfo)} {loads : Bytes → Option Json} {sha256 : Bytes → Text}
variable {linux privileged force : Bool} {archive : Option Archive} {releaseNotes : Option (List Text)}
variable {s : UpdateRoot} {G F F' : UpdateRoot → Prop}

/-! ### The operations -/

theorem keeps_otherCall : otherCall.Keeps G F (fun _ => F) := Program.keeps_operation fun s _ s' hG hF hstep => by
  obtain ⟨-, rfl⟩ := Prod.mk.inj (Except.ok.inj hstep)
  exact ⟨hG, hF⟩

theorem keeps_moveOver {put : UpdateRoot → UpdateRoot} (h : ∀ s, G s → F s → G (put s) ∧ F' (put s)) :
    (moveOver put).Keeps G F (fun _ => F') := Program.keeps_operation fun s _ s' hG hF hstep => by
  obtain ⟨-, rfl⟩ := Prod.mk.inj (Except.ok.inj hstep)
  exact h s hG hF

theorem keeps_atomically {put : UpdateRoot → UpdateRoot} (h : ∀ s, G s → F s → G (put s) ∧ F' (put s)) :
    (atomically put).Keeps G F (fun _ => F') := by
  refine Program.keeps_bind keeps_otherCall fun _ => Program.keeps_bind keeps_otherCall fun _ => ?_
  refine Program.keeps_tryFinally ?_ fun _ => keeps_otherCall
  exact Program.keeps_bind keeps_otherCall fun _ => Program.keeps_bind keeps_otherCall fun _ => keeps_moveOver h

theorem keeps_readJson {name : Text} : (readJson name).Keeps G F (fun _ => F) := by
  refine Program.meets_tryCatch (F := fun _ _ s => G s ∧ F s) ?_ fun _ => Program.keeps_pure fun _ _ hF => hF
  refine Program.meets_operation_any (J := fun _ s => G s ∧ F s) ?_ (fun _ _ _ hs _ => hs) (fun _ _ _ hs => hs) fun _ _ hs => hs.1
  intro s a s' hs hstep
  obtain ⟨-, rfl⟩ := Prod.mk.inj (Except.ok.inj hstep)
  exact hs

theorem keeps_setUpdateOwner : setUpdateOwner.Keeps G F (fun _ => F) :=
  Program.keeps_bind keeps_otherCall fun _ => Program.keeps_bind keeps_otherCall fun _ => keeps_otherCall

/-! ### The package -/

theorem setRelease_self (path : Text) (content : Bytes) : (s.setRelease path content).releases path = some content := Function.update_self _ _ _

theorem eq_some_of_demand {α : Type} {failure : PublishFailure} {x : Option α} {a : α} (h : demand failure x = .ok a) : x = some a := by
  cases x with
  | none => nomatch h
  | some b => exact congrArg some (Except.ok.inj h)

/-- A package that is verified records the hash of its archive. -/
theorem sha256_verify {package : ClientPackage} (h : verify unzip loads sha256 archive = .ok package) :
    package.sha256 = sha256 ((archive.bind (·.content)).getD []) := by
  obtain ⟨found, hfound, h⟩ := bind_eq_ok.mp h
  obtain ⟨content, hcontent, h⟩ := bind_eq_ok.mp h
  obtain ⟨-, -, h⟩ := bind_eq_ok.mp h
  obtain ⟨-, -, h⟩ := bind_eq_ok.mp h
  obtain ⟨bundle, -, h⟩ := bind_eq_ok.mp h
  obtain ⟨-, -, h⟩ := bind_eq_ok.mp h
  obtain ⟨names, -, h⟩ := bind_eq_ok.mp h
  obtain ⟨-, -, h⟩ := bind_eq_ok.mp h
  obtain ⟨manifest, -, h⟩ := bind_eq_ok.mp h
  obtain ⟨raw, -, h⟩ := bind_eq_ok.mp h
  obtain ⟨⟨version, declared⟩, -, h⟩ := bind_eq_ok.mp h
  obtain ⟨-, -, h⟩ := bind_eq_ok.mp h
  obtain ⟨-, -, h⟩ := bind_eq_ok.mp h
  obtain ⟨-, -, h⟩ := bind_eq_ok.mp h
  rw [← Except.ok.inj h, eq_some_of_demand hfound, Option.bind_some, eq_some_of_demand hcontent, Option.getD_some]

/-! ### The manifest -/

/-- The manifest that a publication writes names the package that it copied. -/
theorem servesRecorded_publish {package : ClientPackage} {content : Bytes} {root : UpdateRoot}
    (hcontent : s.releases (releasePath package.version) = some content) (hsha : package.sha256 = sha256 content) :
    ServesRecorded sha256 (s.setFile clientManifest (.object (manifestPayload package releaseNotes root))) := by
  obtain ⟨-, hpath, hrecorded, -, -⟩ := get_manifestPayload package releaseNotes root
  have hmembers : manifestMembers (s.setFile clientManifest (.object (manifestPayload package releaseNotes root))) =
      manifestPayload package releaseNotes root := manifestMembers_eq (UpdateRoot.setFile_self _ _ _)
  intro path hnamed
  rw [manifestText, hmembers, hpath] at hnamed
  obtain rfl := Option.some.inj hnamed
  refine ⟨content, package.sha256, hcontent, ?_, by rw [hsha]; rfl⟩
  rw [manifestText, hmembers, hrecorded]
  rfl

/-- A package that is copied replaces none that is named, or one with the same hash. -/
theorem servesRecorded_setRelease {package : ClientPackage} {content : Bytes} (hserves : ServesRecorded sha256 s)
    (hsha : package.sha256 = sha256 content)
    (hreplaces : manifestText s "fullPackage".toList = some (releasePath package.version) →
      ∀ replaced, s.releases (releasePath package.version) = some replaced → SameDigest (sha256 replaced) package.sha256) :
    ServesRecorded sha256 (s.setRelease (releasePath package.version) content) := by
  intro path hnamed
  obtain ⟨replaced, recorded, hreplaced, hrecorded, hsame⟩ := hserves path hnamed
  by_cases hpath : path = releasePath package.version
  · subst hpath
    refine ⟨content, recorded, setRelease_self _ _, hrecorded, ?_⟩
    exact hsha ▸ hsame.trans (hreplaces hnamed replaced hreplaced)
  · exact ⟨replaced, recorded, (Function.update_of_ne hpath _ _).trans hreplaced, hrecorded, hsame⟩

/-! ### A publication -/

/-- A publication that replaces no other archive keeps the one that is served, wherever it stops. -/
theorem keeps_publishSteps (hreplaces : ¬ReplacesServed unzip loads sha256 linux privileged archive s) :
    (publishSteps unzip loads sha256 linux privileged archive releaseNotes force).Keeps (ServesRecorded sha256) (· = s)
      (fun _ _ => True) := by
  refine Program.keeps_bind (R := fun _ s' => requireRoot linux privileged = .ok () ∧ s' = s)
    (Program.keeps_ofExcept fun _ _ hroot _ hs => ⟨hroot, hs⟩) fun _ => ?_
  refine Program.keeps_bind keeps_otherCall fun _ => ?_
  refine Program.keeps_bind (R := fun package s' => verify unzip loads sha256 archive = .ok package ∧ requireRoot linux privileged = .ok () ∧ s' = s)
    (Program.keeps_ofExcept fun _ _ hverify _ hs => ⟨hverify, hs⟩) fun package => ?_
  refine Program.keeps_of_imp (fun _ _ hs => hs.1) fun hverify => ?_
  have hsha := sha256_verify hverify
  refine Program.keeps_bind keeps_readJson fun manifest => ?_
  refine Program.keeps_bind (Program.keeps_ofExcept fun _ _ _ _ hs => hs) fun _ => ?_
  refine Program.keeps_bind keeps_otherCall fun _ => ?_
  generalize (archive.bind (·.content)).getD [] = content at hsha ⊢
  refine Program.keeps_bind (R := fun _ s' => s'.releases (releasePath package.version) = some content) ?_ fun _ => ?_
  · refine keeps_atomically fun s' hserves ⟨_, hroot, hs⟩ => ⟨?_, setRelease_self _ _⟩
    subst hs
    refine servesRecorded_setRelease hserves hsha fun hnamed replaced hreplaced => ?_
    by_contra hother
    exact hreplaces ⟨package, replaced, hroot, hverify, hnamed, hreplaced, hother⟩
  · refine Program.keeps_bind keeps_readJson fun previous => ?_
    refine Program.keeps_bind keeps_readJson fun announcement => ?_
    refine Program.keeps_bind (R := fun _ _ => True) (keeps_atomically fun s' _ hs => ⟨servesRecorded_publish hs hsha, trivial⟩) fun _ => ?_
    exact Program.keeps_bind keeps_setUpdateOwner fun _ => Program.keeps_pure fun _ _ _ => trivial

/-- A publication may be killed right after the archive took its place. -/
theorem killed_publishSteps {package : ClientPackage} (hroot : requireRoot linux privileged = .ok ())
    (hverify : verify unzip loads sha256 archive = .ok package) :
    ((publishSteps unzip loads sha256 linux privileged archive releaseNotes force).run
        [none, some (.fail 0), none, none, none, none, none, none, some (.kill 0)] s).state =
      s.setRelease (releasePath package.version) ((archive.bind (·.content)).getD []) := by
  have hcompare : compareCurrent package.version (currentVersion (rootRead none none)) force = .ok () := by
    have hversion : package.version ≠ [] := by
      intro hnil
      have hvalid := validVersion_verify hverify
      rw [hnil] at hvalid
      nomatch hvalid
    have hnone : currentVersion (rootRead none none) = [] := rfl
    rw [hnone, compareCurrent, if_neg (by simp), refuseWhen, if_neg]
    · rfl
    · simp [hversion.symm]
  have hcall : ∀ mishaps, otherCall.run (none :: mishaps) s = .done () mishaps s := fun _ => rfl
  have hread : ∀ mishaps, (readJson clientManifest).run (some (.fail 0) :: mishaps) s = .done none mishaps s := fun _ => rfl
  simp only [publishSteps, hroot, hverify, Program.run_bind, Program.ofExcept, Program.run_pure, Execution.andThen, hcall, hread, hcompare]
  rfl

/-! ### When nothing befalls -/

theorem runs_otherCall : otherCall.Runs s (.ok ()) s := Program.runs_operation rfl

theorem runs_atomically {put : UpdateRoot → UpdateRoot} : (atomically put).Runs s (.ok ()) (put s) := by
  refine Program.runs_bind runs_otherCall (Program.runs_bind runs_otherCall ?_)
  refine Program.runs_tryFinally ?_ runs_otherCall
  exact Program.runs_bind runs_otherCall (Program.runs_bind runs_otherCall (Program.runs_operation rfl))

theorem runs_readJson {name : Text} : (readJson name).Runs s (.ok (s.files name)) s := Program.runs_tryCatch (Program.runs_operation rfl)

/-- The members of a manifest depend on the two files that are read. -/
theorem manifestPayload_rootRead (package : ClientPackage) :
    manifestPayload package releaseNotes (rootRead (s.files clientManifest) (s.files AnnouncementManager.updateAnnouncement)) =
      manifestPayload package releaseNotes s := by
  have hmanifest : (rootRead (s.files clientManifest) (s.files AnnouncementManager.updateAnnouncement)).files clientManifest =
      s.files clientManifest := by
    simp only [rootRead, Function.update_self]
  have hannouncement : (rootRead (s.files clientManifest) (s.files AnnouncementManager.updateAnnouncement)).files
      AnnouncementManager.updateAnnouncement = s.files AnnouncementManager.updateAnnouncement := by
    have hne : AnnouncementManager.updateAnnouncement ≠ clientManifest := by decide
    simp only [rootRead, Function.update_of_ne hne, Function.update_self]
  unfold manifestPayload
  rw [hmanifest, AnnouncementManager.updatePayload_congr hannouncement]

/-- When nothing befalls the calls, they publish as a whole. -/
theorem runs_publishSteps :
    (publishSteps unzip loads sha256 linux privileged archive releaseNotes force).Runs s
      ((publish unzip loads sha256 linux privileged archive releaseNotes force s).map (·.1))
      (settle s Outcome.published (publish unzip loads sha256 linux privileged archive releaseNotes force s)).1 := by
  cases hroot : requireRoot linux privileged with
  | error e =>
    have hpublish : publish unzip loads sha256 linux privileged archive releaseNotes force s = .error e := by
      rw [publish, hroot]
      rfl
    rw [hpublish]
    exact Program.runs_bind_error (by rw [hroot]; exact Program.runs_raise)
  | ok _ =>
    refine Program.runs_bind (by rw [hroot]; exact Program.runs_pure) (Program.runs_bind runs_otherCall ?_)
    cases hverify : verify unzip loads sha256 archive with
    | error e =>
      have hpublish : publish unzip loads sha256 linux privileged archive releaseNotes force s = .error e := by
        rw [publish, hroot, hverify]
        rfl
      rw [hpublish]
      exact Program.runs_bind_error Program.runs_raise
    | ok package =>
      refine Program.runs_bind Program.runs_pure (Program.runs_bind runs_readJson ?_)
      have hcurrent : currentVersion (rootRead (s.files clientManifest) none) = currentVersion s := rfl
      rw [hcurrent]
      cases hcompare : compareCurrent package.version (currentVersion s) force with
      | error e =>
        have hpublish : publish unzip loads sha256 linux privileged archive releaseNotes force s = .error e := by
          rw [publish, hroot, hverify]
          simp only [bind, Except.bind, hcompare]
        rw [hpublish]
        exact Program.runs_bind_error Program.runs_raise
      | ok _ =>
        have hpublish : publish unzip loads sha256 linux privileged archive releaseNotes force s =
            .ok ({ package with archive := releasePath package.version },
              (s.setRelease (releasePath package.version) ((archive.bind (·.content)).getD [])).setFile clientManifest
                (.object (manifestPayload package releaseNotes
                  (s.setRelease (releasePath package.version) ((archive.bind (·.content)).getD []))))) := by
          rw [publish, hroot, hverify]
          simp only [bind, Except.bind, hcompare]
          rfl
        rw [hpublish]
        refine Program.runs_bind Program.runs_pure (Program.runs_bind runs_otherCall (Program.runs_bind runs_atomically ?_))
        refine Program.runs_bind runs_readJson (Program.runs_bind runs_readJson (Program.runs_bind runs_atomically ?_))
        rw [manifestPayload_rootRead]
        refine Program.runs_bind (b := ()) ?_ Program.runs_pure
        exact Program.runs_bind runs_otherCall (Program.runs_bind runs_otherCall runs_otherCall)

end ClientPublisher

open ClientPublisher

/-- The manifest in place matches the archive that is served at every point of a publication, whatever befalls it, exactly if the
publication puts no other archive in the place of the one that is named. -/
theorem served_archive_matches_iff (unzip : Bytes → Option (List ZipInfo)) (loads : Bytes → Option Json) (sha256 : Bytes → Text)
    (linux privileged : Bool) (archive : Option Archive) (releaseNotes : Option (List Text)) (force : Bool) (s : UpdateRoot)
    (h : ServesRecorded sha256 s) :
    (∀ mishaps,
        ServesRecorded sha256 ((publishSteps unzip loads sha256 linux privileged archive releaseNotes force).run mishaps s).state) ↔
      ¬ReplacesServed unzip loads sha256 linux privileged archive s := by
  refine ⟨fun hall ⟨package, content, hroot, hverify, hnamed, hcontent, hother⟩ => ?_,
    fun hreplaces mishaps => (keeps_publishSteps hreplaces).state mishaps h rfl⟩
  have hkilled := hall [none, some (.fail 0), none, none, none, none, none, none, some (.kill 0)]
  rw [killed_publishSteps hroot hverify] at hkilled
  -- the manifest is that of before, and the archive the new one
  obtain ⟨old, recorded, hold, hrecorded, hsame⟩ := h _ hnamed
  obtain ⟨new, recorded', hnew, hrecorded', hsame'⟩ := hkilled _ hnamed
  obtain rfl := Option.some.inj (hold.symm.trans hcontent)
  obtain rfl := Option.some.inj (hrecorded.symm.trans hrecorded')
  obtain rfl := Option.some.inj ((setRelease_self _ _).symm.trans hnew)
  rw [← sha256_verify hverify] at hsame'
  exact hother (hsame.symm.trans hsame')

/-- A package that replaces itself is served at every point. -/
theorem served_archive_matches_same :
    let unzip : Bytes → Option (List ZipInfo) := fun _ => some ((requiredFiles ++ [clientPackageManifest]).map fun name => ⟨name, 0, 0, some []⟩)
    let file : Text → Json := fun name => .object
      [("path".toList, .str name), ("size".toList, .int 0), ("sha256".toList, .str (List.replicate 64 '0'))]
    let loads : Bytes → Option Json := fun _ => some (.object
      [("schemaVersion".toList, .int 1), ("clientVersion".toList, .str "1.0.0".toList), ("files".toList, .list (requiredFiles.map file))])
    let sha256 : Bytes → Text := fun content => if content = [2] then List.replicate 64 '1' else List.replicate 64 '0'
    let manifest : Json := .object
      [("version".toList, .str "1.0.0".toList), ("fullPackage".toList, .str (releasePath "1.0.0".toList)),
        ("fullPackageSha256".toList, .str (sha256 [1]))]
    let s := (UpdateRoot.empty.setRelease (releasePath "1.0.0".toList) [1]).setFile clientManifest manifest
    ServesRecorded sha256 s ∧
      ((∀ mishaps, ServesRecorded sha256
          ((publishSteps unzip loads sha256 true true (some ⟨"client.zip".toList, some [1]⟩) none true).run mishaps s).state) ↔
        ¬ReplacesServed unzip loads sha256 true true (some ⟨"client.zip".toList, some [1]⟩) s) := by
  intro unzip file loads sha256 manifest s
  have h : ServesRecorded sha256 s := by
    intro path hnamed
    have hpath : manifestText s "fullPackage".toList = some (releasePath "1.0.0".toList) := rfl
    obtain rfl := Option.some.inj (hnamed.symm.trans hpath)
    exact ⟨[1], sha256 [1], rfl, rfl, rfl⟩
  exact ⟨h, served_archive_matches_iff unzip loads sha256 true true _ none true s h⟩

/-- A version that is published again with another archive, and killed before its manifest is written. -/
theorem served_archive_matches_false :
    ¬∀ (unzip : Bytes → Option (List ZipInfo)) (loads : Bytes → Option Json) (sha256 : Bytes → Text) (linux privileged : Bool)
        (archive : Option Archive) (releaseNotes : Option (List Text)) (force : Bool) (s : UpdateRoot), ServesRecorded sha256 s →
        ∀ mishaps, ServesRecorded sha256
          ((publishSteps unzip loads sha256 linux privileged archive releaseNotes force).run mishaps s).state := by
  intro h
  let unzip : Bytes → Option (List ZipInfo) := fun _ => some ((requiredFiles ++ [clientPackageManifest]).map fun name => ⟨name, 0, 0, some []⟩)
  let file : Text → Json := fun name => .object
    [("path".toList, .str name), ("size".toList, .int 0), ("sha256".toList, .str (List.replicate 64 '0'))]
  let loads : Bytes → Option Json := fun _ => some (.object
    [("schemaVersion".toList, .int 1), ("clientVersion".toList, .str "1.0.0".toList), ("files".toList, .list (requiredFiles.map file))])
  let sha256 : Bytes → Text := fun content => if content = [2] then List.replicate 64 '1' else List.replicate 64 '0'
  let manifest : Json := .object
    [("version".toList, .str "1.0.0".toList), ("fullPackage".toList, .str (releasePath "1.0.0".toList)),
      ("fullPackageSha256".toList, .str (sha256 [1]))]
  let s := (UpdateRoot.empty.setRelease (releasePath "1.0.0".toList) [1]).setFile clientManifest manifest
  have hserves : ServesRecorded sha256 s := by
    intro path hnamed
    have hpath : manifestText s "fullPackage".toList = some (releasePath "1.0.0".toList) := rfl
    obtain rfl := Option.some.inj (hnamed.symm.trans hpath)
    exact ⟨[1], sha256 [1], rfl, rfl, rfl⟩
  have hkilled := h unzip loads sha256 true true (some ⟨"client.zip".toList, some [2]⟩) none true s hserves
    [none, none, none, none, none, none, none, none, some (.kill 0)]
  have hstate : ((publishSteps unzip loads sha256 true true (some ⟨"client.zip".toList, some [2]⟩) none true).run
      [none, none, none, none, none, none, none, none, some (.kill 0)] s).state = s.setRelease (releasePath "1.0.0".toList) [2] := rfl
  rw [hstate] at hkilled
  obtain ⟨content, recorded, hcontent, hrecorded, hsame⟩ := hkilled (releasePath "1.0.0".toList) rfl
  obtain rfl := Option.some.inj hcontent
  obtain rfl := Option.some.inj hrecorded
  exact absurd hsame (by unfold SameDigest; decide)

end Scbl.Manager
