import Scbl.Theorems.RejectedPublish

/-!
# Versions that block a channel

A version is accepted by its characters and compared by its numbers, and one without a digit has none. It is published where there is
nothing to compare it with, and from then on no version of the component is published in the channel. As long as every published version
has a digit, all versions compare, and the greatest version can be published in every channel.
-/

namespace Scbl.Manager

open Scbl.Lib

/-- The greatest version: eighty nines. -/
def topVersion : Text := List.replicate 80 '9'

/-- A version that a call publishes has a digit. -/
def Numbered : Call → Prop
  | .publish _ _ version _ _ => ∀ accepted, validateVersion version = .ok accepted → ∃ c ∈ accepted, c.isDigit = true
  | .promote _ _ => True

/-- A file that may be published for a component. -/
structure ValidFile (componentSpec : ComponentSpec) (file : Source) (content : Bytes) : Prop where
  holds : file.content = some content
  name : equalsIgnoreCase file.name componentSpec.filename = true
  nonempty : content.length ≠ 0
  size : content.length ≤ maximumSize

/-- A publication that succeeds when nothing befalls it. -/
def Publishes (root : Text) (sha256 : Bytes → Text) (s : Repository) (component version : Text) (file : Source) (channel : Text) : Prop :=
  ∃ entry after, (publish root sha256 true component version (some file) channel).run [] s = .done entry [] after

/-- Both versions have a tuple. -/
def Compares (version version' : Text) : Prop := ∃ numbers numbers', versionTuple version = .ok numbers ∧ versionTuple version' = .ok numbers'

namespace ComparableAux

variable {sha256 : Bytes → Text} {root : Text} {s : Repository} {component version channel : Text} {entry : Entry}
  {componentSpec : ComponentSpec} {content : Bytes}

/-! ### Tuples -/

/-- The runs of digits are empty exactly when there is no digit. -/
theorem versionTuple_of_digit (h : ∃ c ∈ version, c.isDigit = true) : ∃ numbers, versionTuple version = .ok numbers := by
  refine ⟨_, if_neg fun hnil => ?_⟩
  have hruns : digitRuns version = [] := List.map_eq_nil_iff.1 hnil
  have hflatten := flatten_digitRuns version
  obtain ⟨c, hmem, hdigit⟩ := h
  rw [hruns, List.flatten_nil] at hflatten
  have hc : c ∈ version.filter Char.isDigit := List.mem_filter.2 ⟨hmem, hdigit⟩
  rw [← hflatten] at hc
  nomatch hc

/-- An accepted version has at most eighty characters. -/
theorem length_le_of_validateVersion (h : validateVersion version = .ok version) : version.length ≤ 80 := by
  simp only [validateVersion] at h
  split at h
  · rename_i hmatches
    rw [Except.ok.inj h] at hmatches
    cases version with
    | nil => exact Nat.zero_le _
    | cons c t =>
      simp only [matchesVersion, Bool.and_eq_true, decide_eq_true_eq] at hmatches
      rw [List.length_cons]
      omega
  · cases h

theorem topVersion_digit : ∃ c ∈ topVersion, c.isDigit = true := ⟨'9', by decide, by decide⟩

theorem validateVersion_topVersion : validateVersion topVersion = .ok topVersion := by decide

theorem versionTuple_topVersion : versionTuple topVersion = .ok [10 ^ 80 - 1] := by decide +kernel

/-- No accepted version is greater than the greatest. -/
theorem not_topVersion_lt (hversion : validateVersion version = .ok version) {numbers : List Nat}
    (hnumbers : versionTuple version = .ok numbers) : ¬ [10 ^ 80 - 1] < numbers := by
  obtain rfl : (digitRuns version).map digitsValue = numbers := by
    simp only [versionTuple] at hnumbers
    split at hnumbers
    · nomatch hnumbers
    · exact Except.ok.inj hnumbers
  have hlength : (digitRuns version).flatten.length ≤ 80 := by
    rw [flatten_digitRuns]
    exact (List.length_filter_le _ _).trans (length_le_of_validateVersion hversion)
  have hdigits : ∀ run ∈ digitRuns version, run ≠ [] ∧ ∀ c ∈ run, c.isDigit = true := by
    intro run hrun
    refine ⟨by simpa using (List.mem_filter.1 hrun).2, fun c hc => ?_⟩
    have hmem : c ∈ (digitRuns version).flatten := List.mem_flatten.2 ⟨run, hrun, hc⟩
    rw [flatten_digitRuns] at hmem
    exact (List.mem_filter.1 hmem).2
  cases hruns : digitRuns version with
  | nil => exact List.not_lt_nil _
  | cons run runs =>
    rw [hruns] at hlength hdigits
    have hrun := digitsValue_lt (hdigits run List.mem_cons_self).2
    rw [List.flatten_cons, List.length_append] at hlength
    rw [List.map_cons]
    intro hlt
    have hpow : 10 ^ run.length ≤ 10 ^ 80 := Nat.pow_le_pow_right (by decide) (by omega)
    rcases List.cons_lt_cons_iff.1 hlt with hless | ⟨heq, hrest⟩
    · omega
    · -- a run of eighty digits leaves no room for another one
      have hfull : ¬ run.length < 80 := fun hshort => by
        have hsmall : 10 ^ run.length ≤ 10 ^ 79 := Nat.pow_le_pow_right (by decide) (by omega)
        omega
      cases runs with
      | nil => exact List.not_lt_nil _ hrest
      | cons next rest =>
        have hnext := List.length_pos_iff.2 (hdigits next (by simp)).1
        rw [List.flatten_cons, List.length_append] at hlength
        omega

/-! ### The invariant -/

/-- A directory that a publication made. -/
structure Made (sha256 : Bytes → Text) (component version : Text) (directory : Directory) (componentSpec : ComponentSpec) (content : Bytes) :
    Prop where
  found : spec component = .ok componentSpec
  accepted : validateVersion version = .ok version
  digit : ∃ c ∈ version, c.isDigit = true
  nonempty : content.length ≠ 0
  size : content.length ≤ maximumSize
  holds : directory = directoryOf component content (entryOf sha256 component version componentSpec content)

/-- The artifacts were made by publications, and the manifests list their entries. -/
structure Open (sha256 : Bytes → Text) (s : Repository) : Prop where
  artifacts : ∀ component version directory, s.artifacts component version = some directory →
    ∃ componentSpec content, Made sha256 component version directory componentSpec content
  manifests : ∀ channel manifest, s.manifests channel = some manifest → manifest.schemaVersion = schemaVersion ∧ manifest.channel = channel
  entries : ∀ channel manifest component entry, s.manifests channel = some manifest → (component, entry) ∈ manifest.components →
    (s.metadata component entry.version).map (·.artifact) = some entry

theorem open_empty : Open sha256 .empty where
  artifacts _ _ _ h := nomatch h
  manifests _ _ h := nomatch h
  entries _ _ _ _ h := nomatch h

/-- An artifact whose record is an entry holds the file of the entry. -/
theorem Open.made (h : Open sha256 s) (hentry : (s.metadata component version).map (·.artifact) = some entry) :
    ∃ componentSpec content, Made sha256 component version (directoryOf component content entry) componentSpec content ∧
      s.artifacts component version = some (directoryOf component content entry) ∧
      entry = entryOf sha256 component version componentSpec content := by
  obtain ⟨metadata, hmetadata, rfl⟩ := Option.map_eq_some_iff.1 hentry
  obtain ⟨directory, hdirectory, hfound⟩ := Option.bind_eq_some_iff.1 hmetadata
  obtain ⟨componentSpec, content, hmade⟩ := h.artifacts _ _ _ hdirectory
  obtain rfl := hmade.holds
  obtain rfl := Option.some.inj hfound
  exact ⟨componentSpec, content, hmade, hdirectory, rfl⟩

theorem Open.setTemporary (h : Open sha256 s) (directory : Directory) : Open sha256 (s.setTemporary directory) :=
  { artifacts := h.artifacts, manifests := h.manifests, entries := h.entries }

/-- A directory takes its place, where there was none. -/
theorem Open.setArtifact {directory : Directory} (h : Open sha256 s) (hnew : s.artifacts component version = none)
    (hmade : Made sha256 component version directory componentSpec content) : Open sha256 (s.setArtifact component version directory) := by
  refine { artifacts := ?_, manifests := h.manifests, entries := ?_ }
  · intro component' version' directory' hdirectory
    rcases PublicationAux.setArtifact_eq_some hdirectory with ⟨rfl, rfl, rfl⟩ | hold
    · exact ⟨componentSpec, content, hmade⟩
    · exact h.artifacts _ _ _ hold
  · intro channel manifest component' entry' hmanifest hmem
    have hentry := h.entries channel manifest component' entry' hmanifest hmem
    obtain ⟨_, _, -, hdirectory, -⟩ := h.made hentry
    rw [← hentry, Repository.metadata, Repository.metadata,
      PublicationAux.artifacts_setArtifact_of_some hnew (Option.isSome_iff_exists.2 ⟨_, hdirectory⟩)]

/-- The entry of an artifact is written into a manifest that was loaded. -/
theorem Open.setManifest {manifest : Manifest} (h : Open sha256 s) (hloaded : Loaded channel manifest s)
    (hentry : (s.metadata component entry.version).map (·.artifact) = some entry) :
    Open sha256 (s.setManifest channel { schemaVersion, channel, components := Dict.set manifest.components component entry }) := by
  refine { artifacts := h.artifacts, manifests := ?_, entries := ?_ }
  · intro channel' manifest' hmanifest
    by_cases hchannel : channel' = channel
    · subst hchannel
      simp only [Repository.setManifest, Function.update_self] at hmanifest
      obtain rfl := Option.some.inj hmanifest
      exact ⟨rfl, rfl⟩
    · simp only [Repository.setManifest, Function.update_of_ne hchannel] at hmanifest
      exact h.manifests channel' manifest' hmanifest
  · intro channel' manifest' component' entry' hmanifest hmem
    by_cases hchannel : channel' = channel
    · subst hchannel
      simp only [Repository.setManifest, Function.update_self] at hmanifest
      obtain rfl := Option.some.inj hmanifest
      rcases Dict.mem_set hmem with heq | hold
      · obtain ⟨rfl, rfl⟩ := Prod.mk.inj heq
        exact hentry
      · rcases hloaded with hsome | ⟨-, rfl⟩
        · exact h.entries channel' manifest component' entry' hsome hold
        · cases hold
    · simp only [Repository.setManifest, Function.update_of_ne hchannel] at hmanifest
      exact h.entries channel' manifest' component' entry' hmanifest hmem

/-- An entry of a manifest that was loaded. -/
theorem Open.listed {manifest : Manifest} (h : Open sha256 s) (hloaded : Loaded channel manifest s)
    (hexisting : Dict.get manifest.components component = some entry) :
    (s.metadata component entry.version).map (·.artifact) = some entry := by
  rcases hloaded with hsome | ⟨-, rfl⟩
  · exact h.entries channel manifest component entry hsome (Dict.mem_of_get hexisting)
  · nomatch hexisting

/-! ### Calls -/

/-- A directory that holds the same artifact has its entry. -/
theorem keeps_compareOpen {digest : Text} :
    (compareArtifact root sha256 component version digest entry).Keeps (Open sha256) (fun _ => True)
      (fun _ s => (s.metadata component version).map (·.artifact) = some entry) := by
  refine Program.keeps_bind keeps_readJson fun old => Program.keeps_bind keeps_isFile fun present => ?_
  refine Program.keeps_bind (R := fun same s => s.metadata component version = some old ∧ (same = true → old.artifact = entry)) ?_
    fun same => ?_
  · split
    · refine Program.keeps_bind keeps_fileDigest fun installed => Program.keeps_pure fun s _ hs => ⟨hs.1.1.2, fun hsame => ?_⟩
      simp only [Bool.and_eq_true, decide_eq_true_eq] at hsame
      exact hsame.2
    · exact Program.keeps_pure fun _ _ hs => ⟨hs.1.2, nofun⟩
  · refine keeps_check fun _ s hx _ hs => ?_
    rw [hs.1, Option.map_some, hs.2 (by simpa using of_refuseWhen hx)]

theorem open_publish {privileged : Bool} {source : Option Source} (h : Numbered (.publish privileged component version source channel)) :
    (publish root sha256 privileged component version source channel).Keeps (Open sha256) (fun _ => True) (fun _ _ => True) := by
  refine keeps_publish_of fun componentSpec accepted content haccepted targetExists => ?_
  let entry := entryOf sha256 component accepted componentSpec content
  refine Program.keeps_bind (R := fun _ s => (s.metadata component accepted).map (·.artifact) = some entry) ?_ fun _ => ?_
  · split
    · exact keeps_compareOpen.mono (fun _ _ _ => trivial) (fun _ _ _ hs => hs)
    · rename_i hmissing
      have hmade : Made sha256 component accepted (directoryOf component content entry) componentSpec content := {
        found := haccepted.spec
        accepted := PublicationAux.validateVersion_idem haccepted.version
        digit := h accepted haccepted.version
        nonempty := haccepted.nonempty
        size := haccepted.size
        holds := rfl }
      refine (keeps_createArtifact_of (J := fun s => (s.metadata component accepted).map (·.artifact) = some entry)
        (fun _ directory hG => hG.setTemporary directory) fun s hG hnew => ⟨hG.setArtifact hnew hmade, ?_⟩).mono
        (fun s _ hs => ?_) (fun _ _ _ hs => hs)
      · rw [Repository.metadata, PublicationAux.artifacts_setArtifact_self]
        rfl
      · rw [hs] at hmissing
        exact Option.not_isSome_iff_eq_none.1 hmissing
  · exact keeps_register fun manifest s _ hG hentry hloaded => ⟨hG.setManifest hloaded hentry, trivial⟩

theorem open_promote {privileged : Bool} :
    (promote root sha256 privileged component).Keeps (Open sha256) (fun _ => True) (fun _ _ => True) :=
  keeps_promote_of fun _ _ _ _ hentry _ hG htest hstable => hG.setManifest hstable (hG.listed htest hentry)

/-- A call that publishes a version with a digit keeps the repository open, whatever befalls it. -/
theorem open_step (call : Call × Mishaps) (hnumbered : Numbered call.1) (h : Open sha256 s) : Open sha256 (step root sha256 s call).1 := by
  obtain ⟨call, mishaps⟩ := call
  have hkeeps : (call.program root sha256).Keeps (Open sha256) (fun _ => True) (fun _ _ => True) := by
    cases call with
    | publish privileged component version source channel => exact open_publish hnumbered
    | promote privileged component => exact open_promote
  exact hkeeps.state mishaps h trivial

theorem open_run (calls : List (Call × Mishaps)) (hnumbered : ∀ call ∈ calls, Numbered call.1) (h : Open sha256 s) :
    Open sha256 (run (step root sha256) s calls) := by
  induction calls generalizing s with
  | nil => exact h
  | cons call calls ih =>
    exact ih (fun later hmem => hnumbered later (List.mem_cons_of_mem _ hmem)) (open_step call (hnumbered call List.mem_cons_self) h)

/-! ### The greatest version -/

theorem refuseWhen_false {condition : Bool} (h : condition = false) (message : Text) : refuseWhen condition message = .ok () := by
  rw [refuseWhen, h]
  rfl

/-- Checks that all pass. -/
theorem forM_ok {α : Type} {f : α → Except ClientComponentError Unit} {xs : List α} (h : ∀ x ∈ xs, f x = .ok ()) : xs.forM f = .ok () := by
  induction xs with
  | nil => rfl
  | cons x xs ih =>
    show (f x >>= fun _ => xs.forM f) = .ok ()
    rw [h x List.mem_cons_self]
    exact ih fun y hy => h y (List.mem_cons_of_mem x hy)

/-- The entry of an artifact is valid. -/
theorem Made.validateEntry {directory : Directory} (h : Made sha256 component version directory componentSpec content)
    (hdigest : isDigest (sha256 content) = true) :
    validateEntry component (entryOf sha256 component version componentSpec content) = .ok () := by
  have hsize : ((entryOf sha256 component version componentSpec content).size = 0 ||
      maximumSize < (entryOf sha256 component version componentSpec content).size : Bool) = false := by
    exact Bool.or_eq_false_iff.2 ⟨decide_eq_false h.nonempty, decide_eq_false (not_lt.2 h.size)⟩
  refine bind_eq_ok.2 ⟨componentSpec, h.found, bind_eq_ok.2 ⟨version, h.accepted, ?_⟩⟩
  refine bind_eq_ok.2 ⟨(), refuseWhen_false (by rw [entryOf, hdigest]; rfl) _, ?_⟩
  refine bind_eq_ok.2 ⟨(), refuseWhen_false hsize _, bind_eq_ok.2 ⟨(), refuseWhen_false (by simp [entryOf]) _, ?_⟩⟩
  exact refuseWhen_false rfl _

/-- The manifest of a channel is loaded, and its entries are those of artifacts. -/
theorem Open.loaded (h : Open sha256 s) (hdigest : ∀ content, isDigest (sha256 content) = true)
    (hchannel : validateChannel channel = .ok ()) : ∃ manifest, loaded s channel = .ok manifest ∧ Loaded channel manifest s := by
  cases hmanifest : s.manifests channel with
  | none => exact ⟨_, bind_eq_ok.2 ⟨(), hchannel, by rw [hmanifest]; rfl⟩, Or.inr ⟨hmanifest, rfl⟩⟩
  | some payload =>
    obtain ⟨hschema, hname⟩ := h.manifests channel payload hmanifest
    have hentries : payload.components.forM (fun item => Manager.validateEntry item.1 item.2) = .ok () := by
      refine forM_ok fun item hmem => ?_
      obtain ⟨_, content, hmade, -, hentry⟩ := h.made (h.entries channel payload item.1 item.2 hmanifest hmem)
      rw [hentry]
      exact hmade.validateEntry (hdigest content)
    refine ⟨payload, bind_eq_ok.2 ⟨(), hchannel, ?_⟩, Or.inl hmanifest⟩
    rw [hmanifest]
    exact bind_eq_ok.2 ⟨(), refuseWhen_false (by simp [hschema, hname]) _, bind_eq_ok.2 ⟨(), hentries, rfl⟩⟩

/-- The manifest of every channel admits the greatest version of a component, once it has its artifact. -/
theorem Open.admitted (h : Open sha256 s) (hdigest : ∀ content, isDigest (sha256 content) = true)
    (hchannel : validateChannel channel = .ok ())
    (hentry : (s.metadata component topVersion).map (·.artifact) = some (entryOf sha256 component topVersion componentSpec content)) :
    ∃ manifest, admitted s channel component topVersion (sha256 content) = .ok manifest := by
  obtain ⟨manifest, hloads, hloaded⟩ := h.loaded hdigest hchannel
  have hcompared : compareListed manifest component topVersion (sha256 content) = .ok () := by
    rw [compareListed]
    cases hexisting : Dict.get manifest.components component with
    | none => rfl
    | some existing =>
      have hlisted := h.listed hloaded hexisting
      obtain ⟨_, _, hmade, -, -⟩ := h.made hlisted
      obtain ⟨old, hold⟩ := versionTuple_of_digit hmade.digit
      refine bind_eq_ok.2 ⟨_, hmade.accepted, bind_eq_ok.2 ⟨_, versionTuple_topVersion, bind_eq_ok.2 ⟨old, hold, ?_⟩⟩⟩
      refine bind_eq_ok.2 ⟨(), refuseWhen_false (decide_eq_false (not_topVersion_lt hmade.accepted hold)) _, refuseWhen_false ?_ _⟩
      by_cases htop : topVersion = existing.version
      · rw [← htop, hentry] at hlisted
        rw [← Option.some.inj hlisted]
        simp [entryOf]
      · simp [htop]
  exact ⟨manifest, bind_eq_ok.2 ⟨manifest, hloads, bind_eq_ok.2 ⟨(), hcompared, rfl⟩⟩⟩

/-- A valid file is published as the greatest version of a component, unless that version holds another file. -/
theorem Open.publishes_top (h : Open sha256 s) (hdigest : ∀ content, isDigest (sha256 content) = true)
    (hchannel : validateChannel channel = .ok ()) (hspec : spec component = .ok componentSpec) {file : Source}
    (hfile : ValidFile componentSpec file content)
    (hfree : ∀ directory, s.artifacts component topVersion = some directory → directory.file = some content) :
    Publishes root sha256 s component topVersion file channel := by
  obtain ⟨name, contents⟩ := file
  obtain rfl : contents = some content := hfile.holds
  let entry := entryOf sha256 component topVersion componentSpec content
  have haccepted : Accepted true component topVersion (some { name, content := some content }) channel componentSpec topVersion content := {
    root := rfl
    spec := hspec
    version := validateVersion_topVersion
    channel := hchannel
    source := ⟨name, rfl, hfile.name⟩
    nonempty := hfile.nonempty
    size := hfile.size }
  have hmade : Made sha256 component topVersion (directoryOf component content entry) componentSpec content := {
    found := hspec
    accepted := validateVersion_topVersion
    digit := topVersion_digit
    nonempty := hfile.nonempty
    size := hfile.size
    holds := rfl }
  cases hartifact : s.artifacts component topVersion with
  | none =>
    have hopen : Open sha256 (s.withArtifact component topVersion content entry) := (h.setTemporary _).setArtifact hartifact hmade
    have hentry : ((s.withArtifact component topVersion content entry).metadata component topVersion).map (·.artifact) = some entry := by
      rw [metadata_withArtifact]
      rfl
    obtain ⟨manifest, hadmitted⟩ := hopen.admitted hdigest hchannel hentry
    exact ⟨_, _, ((publish_becomes_register root sha256 haccepted hartifact).runs (runs_register hchannel hadmitted)).run⟩
  | some directory =>
    obtain ⟨componentSpec', content', hmade'⟩ := h.artifacts _ _ _ hartifact
    obtain rfl := Except.ok.inj (hmade'.found.symm.trans hspec)
    obtain rfl := hmade'.holds
    obtain rfl := Option.some.inj (hfree _ hartifact)
    have hmetadata : s.metadata component topVersion = some { schemaVersion, component, artifact := entry } := by
      rw [Repository.metadata, hartifact]
      rfl
    have hcontent : s.file component topVersion = some content' := by
      rw [Repository.file, hartifact]
      rfl
    have hentry : (s.metadata component topVersion).map (·.artifact) = some entry := by
      rw [hmetadata]
      rfl
    obtain ⟨manifest, hadmitted⟩ := h.admitted hdigest hchannel hentry
    have hplace := publish_becomes root sha256 (s := s) haccepted
    rw [hartifact] at hplace
    exact ⟨_, _, (hplace.runs (Program.runs_bind (runs_compareArtifact_same hmetadata hcontent)
      (runs_register hchannel hadmitted))).run⟩

/-- Some file is published as the greatest version of a component. -/
theorem Open.publishes (h : Open sha256 s) (hdigest : ∀ content, isDigest (sha256 content) = true)
    (hchannel : validateChannel channel = .ok ()) (hspec : spec component = .ok componentSpec) :
    ∃ file content, ValidFile componentSpec file content ∧ Publishes root sha256 s component topVersion file channel := by
  cases hartifact : s.artifacts component topVersion with
  | none =>
    have hvalid : ValidFile componentSpec { name := componentSpec.filename, content := some [0] } [0] :=
      ⟨rfl, by simp [equalsIgnoreCase], by decide, by decide⟩
    exact ⟨_, _, hvalid, h.publishes_top hdigest hchannel hspec hvalid fun directory hdirectory => by simp [hartifact] at hdirectory⟩
  | some directory =>
    obtain ⟨componentSpec', content, hmade⟩ := h.artifacts _ _ _ hartifact
    have hvalid : ValidFile componentSpec { name := componentSpec.filename, content := some content } content :=
      ⟨rfl, by simp [equalsIgnoreCase], hmade.nonempty, hmade.size⟩
    refine ⟨_, _, hvalid, h.publishes_top hdigest hchannel hspec hvalid fun directory' hdirectory => ?_⟩
    obtain rfl := Option.some.inj (hartifact.symm.trans hdirectory)
    rw [hmade.holds]
    rfl

/-! ### A version without a digit -/

/-- Where a version without a tuple is published, no publication succeeds, whatever befalls it. -/
theorem keeps_blocked {manifest : Manifest} {existing : Entry} {privileged : Bool} {source : Option Source}
    (hexisting : Dict.get manifest.components component = some existing) (hvalid : validateVersion existing.version = .ok existing.version)
    (hnone : ∀ numbers, versionTuple existing.version ≠ .ok numbers) :
    (publish root sha256 privileged component version source channel).Keeps (fun s => s.manifests channel = some manifest) (fun _ => True)
      (fun _ _ => False) := by
  refine keeps_publish_of fun componentSpec accepted content _ targetExists => ?_
  refine Program.keeps_bind (R := fun _ _ => True) ?_ fun _ => keeps_register fun loaded s hcompared hG _ hloaded => ?_
  · split
    · exact RejectionAux.keeps_compare.mono (fun _ _ _ => trivial) (fun _ _ _ _ => trivial)
    · rename_i hmissing
      refine (keeps_createArtifact_of (J := fun _ => True) (fun _ _ hG => hG) fun _ hG _ => ⟨hG, trivial⟩).mono (fun s _ hs => ?_)
        fun _ _ _ hs => hs
      rw [hs] at hmissing
      exact Option.not_isSome_iff_eq_none.1 hmissing
  · exfalso
    have hmanifest : loaded = manifest := by
      rcases hloaded with hsome | ⟨hnone, -⟩
      · exact Option.some.inj (hsome.symm.trans hG)
      · rw [hG] at hnone
        nomatch hnone
    rw [hmanifest, compareListed, hexisting] at hcompared
    obtain ⟨oldVersion, hold, hcompared⟩ := bind_eq_ok.1 hcompared
    obtain rfl := Except.ok.inj (hvalid.symm.trans hold)
    obtain ⟨_, -, hcompared⟩ := bind_eq_ok.1 hcompared
    obtain ⟨numbers, hnumbers, -⟩ := bind_eq_ok.1 hcompared
    exact hnone numbers hnumbers

/-- A publication that never succeeds does not. -/
theorem ends_of_run {G : Repository → Prop} {m : Publisher Entry} {befalls rest : Mishaps} {after : Repository}
    (h : (m.run befalls s).Ends (fun _ _ s => G s ∧ False) (fun _ _ s => G s) G) : m.run befalls s ≠ .done entry rest after := by
  intro hrun
  rw [hrun] at h
  exact h.2

/-- A digest of files that is that of the hooks. -/
def knownDigest (content : Bytes) : Text :=
  if content = [1] then "4bf5122f344554c53bde2ebb8cd2b7e3d1600ad631c385a5d7cce23c7785459a".toList else List.replicate 64 '0'

theorem isDigest_knownDigest (content : Bytes) : isDigest (knownDigest content) = true := by
  rw [knownDigest]
  split
  · decide
  · decide

/-- The hooks are published in the version beta. -/
def betaManifest : Manifest where
  schemaVersion
  channel := "stable".toList
  components := [("hooks".toList, entryOf knownDigest "hooks".toList "beta".toList RejectionAux.hooksSpec [1])]

end ComparableAux

open ComparableAux

/-- After every sequence of calls that publish versions with a digit, whatever befalls them, every channel takes a file of every component,
and any valid one unless the greatest version holds another; and every published version compares with every accepted one that has a
digit. -/
theorem channels_stay_open (root : Text) (sha256 : Bytes → Text) (hdigest : ∀ content, isDigest (sha256 content) = true)
    (calls : List (Call × Mishaps)) (hnumbered : ∀ call ∈ calls, Numbered call.1) :
    (∀ channel component componentSpec, validateChannel channel = .ok () → spec component = .ok componentSpec →
        (∃ version file content, ValidFile componentSpec file content ∧
          Publishes root sha256 (run (step root sha256) .empty calls) component version file channel) ∧
        ∀ file content, ValidFile componentSpec file content →
          (∀ directory, (run (step root sha256) .empty calls).artifacts component topVersion = some directory →
            directory.file = some content) →
          Publishes root sha256 (run (step root sha256) .empty calls) component topVersion file channel) ∧
      ∀ channel component entry version accepted, (run (step root sha256) .empty calls).published channel component = some entry →
        validateVersion version = .ok accepted → (∃ c ∈ accepted, c.isDigit = true) → Compares accepted entry.version := by
  have hopen : Open sha256 (run (step root sha256) .empty calls) := open_run calls hnumbered open_empty
  refine ⟨fun channel component componentSpec hchannel hspec => ⟨?_, ?_⟩, ?_⟩
  · exact ⟨topVersion, hopen.publishes hdigest hchannel hspec⟩
  · exact fun file content hfile hfree => hopen.publishes_top hdigest hchannel hspec hfile hfree
  · intro channel component entry version accepted hpublished _ hdigit
    obtain ⟨manifest, hmanifest, hentry⟩ := Option.bind_eq_some_iff.1 hpublished
    obtain ⟨_, _, hmade, -, -⟩ := hopen.made (hopen.entries _ _ _ _ hmanifest (Dict.mem_of_get hentry))
    obtain ⟨numbers, hnumbers⟩ := versionTuple_of_digit hdigit
    obtain ⟨numbers', hnumbers'⟩ := versionTuple_of_digit hmade.digit
    exact ⟨numbers, numbers', hnumbers, hnumbers'⟩

/-- The hooks are published in version 1.0, and another version can be published. -/
theorem hooks_stay_open :
    ∃ version file content, ValidFile RejectionAux.hooksSpec file content ∧
      Publishes [] knownDigest (run (step [] knownDigest) .empty
        [(.publish true "hooks".toList "1.0".toList (RejectionAux.hooksFile [1]) "stable".toList, [])]) "hooks".toList version file
        "stable".toList := by
  refine ((channels_stay_open [] knownDigest isDigest_knownDigest _ ?_).1 _ _ _ rfl (by decide)).1
  intro call hmem
  obtain rfl := List.mem_singleton.1 hmem
  intro accepted haccepted
  obtain rfl : "1.0".toList = accepted := Except.ok.inj haccepted
  exact ⟨'1', by decide, by decide⟩

/-- The hooks are published in the version beta, and no version of them is published in the channel any more. -/
theorem channels_stay_open_false :
    ∃ entry after, (publish [] knownDigest true "hooks".toList "beta".toList (RejectionAux.hooksFile [1]) "stable".toList).run [] .empty =
        .done entry [] after ∧
      ∀ privileged version source befalls entry' rest after',
        (publish [] knownDigest privileged "hooks".toList version source "stable".toList).run befalls after ≠ .done entry' rest after' := by
  have haccepted : Accepted true "hooks".toList "beta".toList (RejectionAux.hooksFile [1]) "stable".toList RejectionAux.hooksSpec
      "beta".toList [1] := {
    root := rfl
    spec := by decide
    version := by decide
    channel := rfl
    source := ⟨_, rfl, by decide⟩
    nonempty := by decide
    size := by decide }
  have hadmitted : admitted (Repository.empty.withArtifact "hooks".toList "beta".toList [1] (entryOf knownDigest "hooks".toList
      "beta".toList RejectionAux.hooksSpec [1])) "stable".toList "hooks".toList "beta".toList (knownDigest [1]) =
        .ok (emptyManifest "stable".toList) := rfl
  refine ⟨_, _, ((publish_becomes_register [] knownDigest haccepted rfl).runs (runs_register rfl hadmitted)).run, ?_⟩
  intro privileged version source befalls entry' rest after' hrun
  have hkeeps : (publish [] knownDigest privileged "hooks".toList version source "stable".toList).Keeps
      (fun s => s.manifests "stable".toList = some betaManifest) (fun _ => True) (fun _ _ => False) :=
    keeps_blocked rfl (by decide) fun _ hnumbers => nomatch hnumbers
  refine ends_of_run (hkeeps befalls _ ⟨?_, trivial⟩) hrun
  exact manifests_setManifest _ _

end Scbl.Manager
