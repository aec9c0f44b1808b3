import Scbl.Lemmas.Publishing
import Scbl.Lib.Run
import Mathlib.Data.List.Lex
import Mathlib

/-!
# Published components

An artifact is complete when it takes its place and is never written again, and a manifest is written after the checks. So, whatever
befalls the calls, every entry of a manifest names a file of its size and digest, and the version of a component in a channel never
goes back.
-/

namespace Scbl.Manager

open Scbl.Lib

/-- The file that an entry names has the size and the digest of the entry. -/
def Serves (sha256 : Bytes → Text) (s : Repository) (component : Text) (entry : Entry) : Prop :=
  ∃ componentSpec content, spec component = .ok componentSpec ∧ entry.url = artifactUrl component entry.version componentSpec.filename ∧
    s.file component entry.version = some content ∧ content.length = entry.size ∧ sha256 content = entry.sha256

/-- Every entry of every channel is served. -/
def Servable (sha256 : Bytes → Text) (s : Repository) : Prop :=
  ∀ channel manifest component entry, s.manifests channel = some manifest → (component, entry) ∈ manifest.components →
    Serves sha256 s component entry

/-- The entry of a component in the manifest of a channel. -/
def Repository.published (s : Repository) (channel component : Text) : Option Entry :=
  (s.manifests channel).bind (fun manifest => Dict.get manifest.components component)

/-- An entry that stays as it is, or has a version whose tuple is not smaller. -/
def NotOlder (entry entry' : Entry) : Prop :=
  entry' = entry ∨ ∃ old new, versionTuple entry.version = .ok old ∧ versionTuple entry'.version = .ok new ∧ old ≤ new

/-- What is published stays published, with no older version. -/
def Advances (s s' : Repository) : Prop :=
  ∀ channel component entry, s.published channel component = some entry →
    ∃ entry', s'.published channel component = some entry' ∧ NotOlder entry entry'

namespace PublicationAux

variable {sha256 : Bytes → Text} {root : Text} {s s' s₀ : Repository} {component version channel : Text} {entry : Entry}

/-! ### Versions -/

/-- The characters of a version are no white space. -/
theorem not_isSpace_of_isVersionChar {c : Char} (h : isVersionChar c = true) : isSpace c = false := by
  have hranges : (48 ≤ c.toNat ∧ c.toNat ≤ 57) ∨ (65 ≤ c.toNat ∧ c.toNat ≤ 90) ∨ (97 ≤ c.toNat ∧ c.toNat ≤ 122) ∨
      c.toNat = 46 ∨ c.toNat = 95 ∨ c.toNat = 43 ∨ c.toNat = 45 := by
    simp only [isVersionChar, Char.isAlphanum, Char.isAlpha, Char.isUpper, Char.isLower, Char.isDigit, Bool.or_eq_true,
      Bool.and_eq_true, decide_eq_true_eq, List.contains_iff_mem, List.mem_cons, List.not_mem_nil, or_false, ge_iff_le,
      UInt32.le_iff_toNat_le] at h
    rcases h with ((hupper | hlower) | hdigit) | rfl | rfl | rfl | rfl
    · exact Or.inr (Or.inl hupper)
    · exact Or.inr (Or.inr (Or.inl hlower))
    · exact Or.inl hdigit
    all_goals decide
  simp only [isSpace, isWhiteSpace, Bool.or_eq_false_iff, decide_eq_false_iff_not, Bool.and_eq_false_iff]
  omega

/-- A text without white space is not stripped. -/
theorem strip_eq_self {t : Text} (h : ∀ c ∈ t, isSpace c = false) : strip t = t := dropWhile_ends h

/-- An accepted version is accepted as it is. -/
theorem validateVersion_idem {given version : Text} (h : validateVersion given = .ok version) :
    validateVersion version = .ok version := by
  simp only [validateVersion] at h
  split at h
  · rename_i hmatches
    obtain rfl := Except.ok.inj h
    have hchars : ∀ c ∈ strip given, isSpace c = false := by
      intro c hc
      apply not_isSpace_of_isVersionChar
      cases hstrip : strip given with
      | nil => simp [hstrip] at hc
      | cons first rest =>
        rw [hstrip, matchesVersion, Bool.and_eq_true, Bool.and_eq_true] at hmatches
        rw [hstrip] at hc
        rcases List.mem_cons.1 hc with rfl | hrest
        · simp [isVersionChar, hmatches.1.1]
        · exact List.all_eq_true.1 hmatches.2 c hrest
    simp only [validateVersion, strip_eq_self hchars, hmatches, if_true]
  · nomatch h

theorem notOlder_refl (entry : Entry) : NotOlder entry entry := Or.inl rfl

theorem notOlder_trans {entry entry' entry'' : Entry} (h : NotOlder entry entry') (h' : NotOlder entry' entry'') :
    NotOlder entry entry'' := by
  rcases h with rfl | ⟨old, new, hold, hnew, hle⟩
  · exact h'
  · rcases h' with rfl | ⟨old', new', hold', hnew', hle'⟩
    · exact Or.inr ⟨old, new, hold, hnew, hle⟩
    · obtain rfl := Except.ok.inj (hnew.symm.trans hold')
      exact Or.inr ⟨old, new', hold, hnew', hle.trans hle'⟩

theorem advances_refl (s : Repository) : Advances s s := fun _ _ entry h => ⟨entry, h, notOlder_refl entry⟩

theorem advances_trans {s'' : Repository} (h : Advances s s') (h' : Advances s' s'') : Advances s s'' := by
  intro channel component entry hentry
  obtain ⟨entry', hentry', hnot⟩ := h channel component entry hentry
  obtain ⟨entry'', hentry'', hnot'⟩ := h' channel component entry' hentry'
  exact ⟨entry'', hentry'', notOlder_trans hnot hnot'⟩

/-! ### The invariant -/

/-- A directory with a file and the entry that tells its size and digest. -/
structure Complete (sha256 : Bytes → Text) (directory : Directory) (content : Bytes) (entry : Entry) : Prop where
  file : directory.file = some content
  artifact : directory.metadata.map (·.artifact) = some entry
  size : entry.size = content.length
  digest : entry.sha256 = sha256 content

/-- An entry of a manifest: it is served, and its version is one that is accepted as it is. -/
structure Listed (sha256 : Bytes → Text) (s : Repository) (component : Text) (entry : Entry) : Prop where
  serves : Serves sha256 s component entry
  version : validateVersion entry.version = .ok entry.version

/-- The artifacts are complete, and the entries of the manifests are served. -/
structure Sound (sha256 : Bytes → Text) (s : Repository) : Prop where
  artifacts : ∀ component version directory, s.artifacts component version = some directory →
    ∃ content entry, Complete sha256 directory content entry
  entries : ∀ channel manifest component entry, s.manifests channel = some manifest → (component, entry) ∈ manifest.components →
    Listed sha256 s component entry

/-- The repository is sound, and nothing went back since an earlier state. -/
structure Good (sha256 : Bytes → Text) (s₀ s : Repository) : Prop where
  sound : Sound sha256 s
  advances : Advances s₀ s

theorem Listed.of_file (h : Listed sha256 s component entry) (hfile : s'.file component entry.version = s.file component entry.version) :
    Listed sha256 s' component entry := by
  obtain ⟨⟨componentSpec, content, hspec, hurl, hcontent, hrest⟩, hversion⟩ := h
  exact ⟨⟨componentSpec, content, hspec, hurl, hfile.trans hcontent, hrest⟩, hversion⟩

theorem Good.setTemporary (h : Good sha256 s₀ s) (directory : Directory) : Good sha256 s₀ (s.setTemporary directory) where
  sound := { artifacts := h.sound.artifacts
             entries := fun channel manifest component entry hmanifest hmem =>
               (h.sound.entries channel manifest component entry hmanifest hmem).of_file rfl }
  advances := h.advances

/-- Another artifact, or one that was there. -/
theorem artifacts_setArtifact_of_some {directory : Directory} {component' version' : Text} (hnew : s.artifacts component version = none)
    (hsome : (s.artifacts component' version').isSome = true) :
    (s.setArtifact component version directory).artifacts component' version' = s.artifacts component' version' := by
  have hne : component' = component → version' ≠ version := by
    rintro rfl rfl
    rw [hnew] at hsome
    nomatch hsome
  by_cases hcomponent : component' = component
  · subst hcomponent
    simp [Repository.setArtifact, Function.update_of_ne (hne rfl)]
  · simp [Repository.setArtifact, Function.update_of_ne hcomponent]

/-- The file of another artifact, or of one that was there. -/
theorem file_setArtifact {directory : Directory} {component' version' : Text} (hnew : s.artifacts component version = none)
    (hfile : (s.file component' version').isSome = true) :
    (s.setArtifact component version directory).file component' version' = s.file component' version' := by
  rw [Repository.file, Repository.file, artifacts_setArtifact_of_some hnew (Option.isSome_of_isSome_bind hfile)]

theorem artifacts_setArtifact_self (directory : Directory) :
    (s.setArtifact component version directory).artifacts component version = some directory := by
  simp [Repository.setArtifact]

/-- An artifact is the one that took its place, or was there. -/
theorem setArtifact_eq_some {directory directory' : Directory} {component' version' : Text}
    (h : (s.setArtifact component version directory).artifacts component' version' = some directory') :
    (component' = component ∧ version' = version ∧ directory' = directory) ∨ s.artifacts component' version' = some directory' := by
  by_cases hcomponent : component' = component
  · subst hcomponent
    by_cases hversion : version' = version
    · subst hversion
      rw [artifacts_setArtifact_self] at h
      exact Or.inl ⟨rfl, rfl, (Option.some.inj h).symm⟩
    · simp only [Repository.setArtifact, Function.update_self, Function.update_of_ne hversion] at h
      exact Or.inr h
  · simp only [Repository.setArtifact, Function.update_of_ne hcomponent] at h
    exact Or.inr h

/-- A complete directory takes its place, where there was none. -/
theorem Good.setArtifact {directory : Directory} {content : Bytes} (h : Good sha256 s₀ s) (hnew : s.artifacts component version = none)
    (hcomplete : Complete sha256 directory content entry) : Good sha256 s₀ (s.setArtifact component version directory) := by
  refine { sound := { artifacts := ?_, entries := ?_ }, advances := h.advances }
  · intro component' version' directory' hdirectory
    rcases setArtifact_eq_some hdirectory with ⟨rfl, rfl, rfl⟩ | hold
    · exact ⟨content, entry, hcomplete⟩
    · exact h.sound.artifacts _ _ _ hold
  · intro channel manifest component' entry' hmanifest hmem
    have hlisted := h.sound.entries channel manifest component' entry' hmanifest hmem
    obtain ⟨_, content', -, -, hcontent, -⟩ := hlisted.serves
    exact hlisted.of_file (file_setArtifact hnew (by rw [hcontent]; rfl))

theorem published_of_loaded {manifest : Manifest} (h : Loaded channel manifest s) (component : Text) :
    s.published channel component = Dict.get manifest.components component := by
  rcases h with hsome | ⟨hnone, rfl⟩
  · rw [Repository.published, hsome]
    rfl
  · rw [Repository.published, hnone]
    rfl

/-- A manifest is written with an entry that is served and not older. -/
theorem Good.setManifest {manifest : Manifest} (h : Good sha256 s₀ s) (hloaded : Loaded channel manifest s)
    (hlisted : Listed sha256 s component entry)
    (hnot : ∀ existing, Dict.get manifest.components component = some existing → NotOlder existing entry) :
    Good sha256 s₀ (s.setManifest channel
      { schemaVersion, channel, components := Dict.set manifest.components component entry }) := by
  refine { sound := { artifacts := h.sound.artifacts, entries := ?_ }, advances := advances_trans h.advances ?_ }
  · intro channel' manifest' component' entry' hmanifest hmem
    by_cases hchannel : channel' = channel
    · subst hchannel
      simp only [Repository.setManifest, Function.update_self] at hmanifest
      obtain rfl := Option.some.inj hmanifest
      rcases Dict.mem_set hmem with heq | hold
      · obtain ⟨rfl, rfl⟩ := Prod.mk.inj heq
        exact hlisted.of_file rfl
      · rcases hloaded with hsome | ⟨-, rfl⟩
        · exact (h.sound.entries channel' manifest component' entry' hsome hold).of_file rfl
        · cases hold
    · simp only [Repository.setManifest, Function.update_of_ne hchannel] at hmanifest
      exact (h.sound.entries channel' manifest' component' entry' hmanifest hmem).of_file rfl
  · intro channel' component' existing hexisting
    by_cases hchannel : channel' = channel
    · subst hchannel
      rw [published_of_loaded hloaded] at hexisting
      simp only [Repository.published, Repository.setManifest, Function.update_self, Option.bind_some]
      by_cases hcomponent : component' = component
      · subst hcomponent
        exact ⟨entry, Dict.get_set_self _ _ _, hnot existing hexisting⟩
      · exact ⟨existing, (Dict.get_set_other _ _ hcomponent).trans hexisting, notOlder_refl existing⟩
    · refine ⟨existing, ?_, notOlder_refl existing⟩
      simpa only [Repository.published, Repository.setManifest, Function.update_of_ne hchannel] using hexisting

/-! ### Publish -/

variable (entry) in
/-- A directory that holds the same artifact serves the entry. -/
theorem keeps_compareArtifact {digest : Text} {componentSpec : ComponentSpec} (hspec : spec component = .ok componentSpec)
    (hversion : validateVersion entry.version = .ok entry.version) (hdigest : entry.sha256 = digest)
    (hurl : entry.url = artifactUrl component entry.version componentSpec.filename) :
    (compareArtifact root sha256 component entry.version digest entry).Keeps (Good sha256 s₀) (fun _ => True)
      (fun _ s => Listed sha256 s component entry) := by
  refine Program.keeps_bind keeps_readJson fun old => Program.keeps_bind keeps_isFile fun present => ?_
  refine Program.keeps_bind (R := fun same s => s.metadata component entry.version = some old ∧
    (same = true → (s.file component entry.version).map sha256 = some digest ∧ old.artifact = entry)) ?_ fun same => ?_
  · split
    · refine Program.keeps_bind keeps_fileDigest fun installed => Program.keeps_pure fun s _ hs => ⟨hs.1.1.2, fun hsame => ?_⟩
      obtain ⟨rfl, hartifact⟩ : installed = digest ∧ old.artifact = entry := by simpa using hsame
      exact ⟨hs.2, hartifact⟩
    · exact Program.keeps_pure fun _ _ hs => ⟨hs.1.2, nofun⟩
  · refine keeps_check fun _ s hx hG hs => ?_
    obtain ⟨hmetadata, hsame⟩ := hs
    obtain ⟨hfile, rfl⟩ := hsame (by simpa using of_refuseWhen hx)
    obtain ⟨directory, hdirectory, holds⟩ := Option.bind_eq_some_iff.1 hmetadata
    obtain ⟨content, entry', hcomplete⟩ := hG.sound.artifacts _ _ _ hdirectory
    have hentry : old.artifact = entry' := by
      have hartifact := hcomplete.artifact
      rw [holds] at hartifact
      exact Option.some.inj hartifact
    have hcontent : s.file component old.artifact.version = some content := by
      rw [Repository.file, hdirectory]
      exact hcomplete.file
    refine { serves := ⟨componentSpec, content, hspec, hurl, hcontent, ?_, ?_⟩, version := hversion }
    · rw [hentry, hcomplete.size]
    · rw [hentry, hcomplete.digest]

variable (entry) in
/-- A new directory serves the entry. -/
theorem keeps_createArtifact {content : Bytes} {componentSpec : ComponentSpec} (hspec : spec component = .ok componentSpec)
    (hversion : validateVersion entry.version = .ok entry.version) (hdigest : entry.sha256 = sha256 content)
    (hsize : entry.size = content.length) (hurl : entry.url = artifactUrl component entry.version componentSpec.filename) :
    (createArtifact component entry.version (some content) entry).Keeps (Good sha256 s₀)
      (fun s => s.artifacts component entry.version = none) (fun _ s => Listed sha256 s component entry) := by
  refine keeps_createArtifact_of (fun s directory hG => hG.setTemporary directory) fun s hG hnew => ?_
  have hcomplete : Complete sha256 (directoryOf component content entry) content entry := ⟨rfl, rfl, hsize, hdigest⟩
  refine ⟨hG.setArtifact hnew hcomplete, ⟨componentSpec, content, hspec, hurl, ?_, hsize.symm, hdigest.symm⟩, hversion⟩
  rw [Repository.file, artifacts_setArtifact_self]
  rfl

/-- Where the order of two tuples is checked, the new one is not smaller. -/
theorem notOlder_of_refuseWhen {existing : Entry} {new old : List Nat} {message : Text} {u : Unit}
    (hnew : versionTuple entry.version = .ok new) (hold : versionTuple existing.version = .ok old)
    (h : refuseWhen (decide (new < old)) message = .ok u) : NotOlder existing entry :=
  Or.inr ⟨old, new, hold, hnew, not_lt.1 (of_decide_eq_false (of_refuseWhen h))⟩

/-- An entry that passes the comparison with the published one is not older. -/
theorem notOlder_of_comparePublished {digest : Text} {existing : Entry} {u : Unit}
    (hversion : validateVersion existing.version = .ok existing.version)
    (h : comparePublished component entry.version digest existing = .ok u) : NotOlder existing entry := by
  obtain ⟨oldVersion, holdVersion, h⟩ := bind_eq_ok.1 h
  obtain rfl := Except.ok.inj (hversion.symm.trans holdVersion)
  obtain ⟨new, hnew, h⟩ := bind_eq_ok.1 h
  obtain ⟨old, hold, h⟩ := bind_eq_ok.1 h
  obtain ⟨_, hchecked, -⟩ := bind_eq_ok.1 h
  exact notOlder_of_refuseWhen hnew hold hchecked

/-- An entry that passes the comparison with the stable one is not older. -/
theorem notOlder_of_comparePromoted {current : Entry} {u : Unit} (h : comparePromoted entry current = .ok u) : NotOlder current entry := by
  obtain ⟨new, hnew, h⟩ := bind_eq_ok.1 h
  obtain ⟨old, hold, h⟩ := bind_eq_ok.1 h
  exact notOlder_of_refuseWhen hnew hold h

/-- The entries of a manifest that was loaded are listed. -/
theorem Good.listed {manifest : Manifest} {existing : Entry} (h : Good sha256 s₀ s) (hloaded : Loaded channel manifest s)
    (hexisting : Dict.get manifest.components component = some existing) : Listed sha256 s component existing := by
  rcases hloaded with hsome | ⟨-, rfl⟩
  · exact h.sound.entries channel manifest component existing hsome (Dict.mem_of_get hexisting)
  · nomatch hexisting

theorem keeps_publish (privileged : Bool) (component version : Text) (source : Option Source) (channel : Text) :
    (publish root sha256 privileged component version source channel).Keeps (Good sha256 s₀) (fun _ => True) (fun _ _ => True) := by
  refine keeps_publish_of fun componentSpec accepted content haccepted targetExists => ?_
  have hidem : validateVersion accepted = .ok accepted := validateVersion_idem haccepted.version
  let entry := entryOf sha256 component accepted componentSpec content
  refine Program.keeps_bind (R := fun _ s => Listed sha256 s component entry) ?_ fun _ => ?_
  · split
    · exact (keeps_compareArtifact entry haccepted.spec hidem rfl rfl).mono (fun _ _ _ => trivial) (fun _ _ _ hs => hs)
    · rename_i hmissing
      refine (keeps_createArtifact entry haccepted.spec hidem rfl rfl rfl).mono (fun s _ hs => ?_) (fun _ _ _ hs => hs)
      rw [hs] at hmissing
      exact Option.not_isSome_iff_eq_none.1 hmissing
  · refine keeps_register fun manifest s hcompared hG hlisted hloaded =>
      ⟨hG.setManifest hloaded hlisted fun existing hexisting => ?_, trivial⟩
    rw [compareListed, hexisting] at hcompared
    exact notOlder_of_comparePublished (hG.listed hloaded hexisting).version hcompared

theorem keeps_promote (privileged : Bool) (component : Text) :
    (promote root sha256 privileged component).Keeps (Good sha256 s₀) (fun _ => True) (fun _ _ => True) := by
  refine keeps_promote_of fun test stable entry s hentry hcompared hG htest hstable => ?_
  refine hG.setManifest hstable (hG.listed htest hentry) fun current hcurrent => ?_
  rw [compareStable, hcurrent] at hcompared
  exact notOlder_of_comparePromoted hcompared

/-- Every call keeps the repository sound and does not go back, whatever befalls it. -/
theorem good_step (call : Call × Mishaps) (h : Good sha256 s₀ s) : Good sha256 s₀ (step root sha256 s call).1 := by
  obtain ⟨call, mishaps⟩ := call
  have hkeeps : (call.program root sha256).Keeps (Good sha256 s₀) (fun _ => True) (fun _ _ => True) := by
    cases call with
    | publish privileged component version source channel => exact keeps_publish privileged component version source channel
    | promote privileged component => exact keeps_promote privileged component
  exact hkeeps.state mishaps h trivial

theorem good_run (calls : List (Call × Mishaps)) (h : Good sha256 s₀ s) : Good sha256 s₀ (run (step root sha256) s calls) := by
  induction calls generalizing s with
  | nil => exact h
  | cons call calls ih => exact ih (good_step call h)

theorem sound_empty : Sound sha256 .empty where
  artifacts _ _ _ h := nomatch h
  entries _ _ _ _ h := nomatch h

end PublicationAux

open PublicationAux in
/-- After every sequence of calls, whatever befalls them, every published entry is served, and no later call goes back. -/
theorem published_servable_advances (root : Text) (sha256 : Bytes → Text) (calls later : List (Call × Mishaps)) :
    Servable sha256 (run (step root sha256) .empty calls) ∧
      Advances (run (step root sha256) .empty calls) (run (step root sha256) .empty (calls ++ later)) := by
  have hsound : Sound sha256 (run (step root sha256) .empty calls) :=
    (good_run calls { sound := sound_empty, advances := advances_refl .empty }).sound
  constructor
  · exact fun channel manifest component entry hmanifest hmem => (hsound.entries channel manifest component entry hmanifest hmem).serves
  · rw [run_append]
    exact (good_run later { sound := hsound, advances := advances_refl _ }).advances

end Scbl.Manager
