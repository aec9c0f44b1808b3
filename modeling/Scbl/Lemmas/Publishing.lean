import Scbl.Lib.Panic
import Scbl.Manager.ClientComponents

/-!
# A publication that nothing befalls

What each part of a publication does when none of its operations fails. The arguments are checked first, then the directory of the version
is compared or created, and only then is the version compared with the published one; `publish_runs` puts the parts together.
-/

namespace Scbl.Manager

open Scbl.Lib

variable {root : Text} {sha256 : Bytes → Text} {s s' : Repository} {component version channel : Text} {entry : Entry}

/-- The checks of a publication that come before it looks at the repository. -/
structure Accepted (privileged : Bool) (component version : Text) (source : Option Source) (channel : Text) (componentSpec : ComponentSpec)
    (accepted : Text) (content : Bytes) : Prop where
  root : requireRoot privileged = .ok ()
  spec : spec component = .ok componentSpec
  version : validateVersion version = .ok accepted
  channel : validateChannel channel = .ok ()
  source : ∃ name, source = some { name, content := some content } ∧ equalsIgnoreCase name componentSpec.filename = true
  nonempty : content.length ≠ 0
  size : content.length ≤ maximumSize

/-- The record of a file that is published. -/
def entryOf (sha256 : Bytes → Text) (component version : Text) (componentSpec : ComponentSpec) (content : Bytes) : Entry where
  version
  sha256 := sha256 content
  size := content.length
  url := artifactUrl component version componentSpec.filename
  minLauncherVersion := []
  updateMode := componentSpec.updateMode
  required := true

/-- The manifest of a channel, or why it is refused. -/
def loaded (s : Repository) (channel : Text) : Except ClientComponentError Manifest := do
  validateChannel channel
  match s.manifests channel with
  | some payload => do
    refuseWhen (payload.schemaVersion ≠ schemaVersion || payload.channel ≠ channel) (channel ++ " 客户端组件清单无效".toList)
    payload.components.forM (fun item => validateEntry item.1 item.2)
    pure payload
  | none => pure (emptyManifest channel)

/-- The comparison of a version with the one that a manifest lists, where it lists one. -/
def compareListed (manifest : Manifest) (component version digest : Text) : Except ClientComponentError Unit :=
  match Dict.get manifest.components component with
  | some existing => comparePublished component version digest existing
  | none => .ok ()

/-- The comparison of an entry with the one that the stable manifest lists, where it lists one. -/
def compareStable (stable : Manifest) (component : Text) (entry : Entry) : Except ClientComponentError Unit :=
  match Dict.get stable.components component with
  | some current => comparePromoted entry current
  | none => .ok ()

/-- The manifest of a channel when a version may be published in it, or why not. -/
def admitted (s : Repository) (channel component version digest : Text) : Except ClientComponentError Manifest := do
  let manifest ← loaded s channel
  compareListed manifest component version digest
  pure manifest

/-- The directory of a published file. -/
def directoryOf (component : Text) (content : Bytes) (entry : Entry) : Directory where
  file := some content
  metadata := some { schemaVersion, component, artifact := entry }

/-- The last part of a publication: the version is compared with the published one and recorded. -/
def register (root channel component version digest : Text) (entry : Entry) : Publisher Entry := do
  unseen
  setUpdateOwner
  setUpdateOwner
  let manifest ← loadManifest root channel
  check (compareListed manifest component version digest)
  writeManifest channel { manifest with components := Dict.set manifest.components component entry }
  pure entry

/-- The repository with a new artifact. -/
def Repository.withArtifact (s : Repository) (component version : Text) (content : Bytes) (entry : Entry) : Repository :=
  (s.setTemporary (directoryOf component content entry)).setArtifact component version (directoryOf component content entry)

theorem artifacts_withArtifact (content : Bytes) :
    (s.withArtifact component version content entry).artifacts component version = some (directoryOf component content entry) := by
  simp [Repository.withArtifact, Repository.setArtifact]

theorem metadata_withArtifact (content : Bytes) :
    (s.withArtifact component version content entry).metadata component version =
      some { schemaVersion, component, artifact := entry } := by
  rw [Repository.metadata, artifacts_withArtifact]
  rfl

theorem file_withArtifact (content : Bytes) : (s.withArtifact component version content entry).file component version = some content := by
  rw [Repository.file, artifacts_withArtifact]
  rfl

theorem manifests_setManifest (s : Repository) (manifest : Manifest) : (s.setManifest channel manifest).manifests channel = some manifest := by
  simp [Repository.setManifest]

/-! ### The parts -/

theorem runs_unseen : unseen.Runs s (.ok ()) s := Program.runs_operation rfl

theorem runs_change (f : Repository → Repository) : (change f).Runs s (.ok ()) (f s) := Program.runs_operation rfl

theorem runs_readFile {α : Type} {read : Repository → Option α} {a : α} (h : read s = some a) : (readFile read).Runs s (.ok a) s :=
  Program.runs_operation (by simp only [h])

theorem runs_isFile {α : Type} (read : Repository → Option α) : (isFile read).Runs s (.ok (read s).isSome) s := Program.runs_query

theorem runs_fileSize {read : Repository → Option Bytes} {content : Bytes} (h : read s = some content) :
    (fileSize read).Runs s (.ok content.length) s :=
  Program.runs_bind (runs_readFile h) Program.runs_pure

theorem runs_fileDigest {read : Repository → Option Bytes} {content : Bytes} (h : read s = some content) :
    (fileDigest sha256 read).Runs s (.ok (sha256 content)) s :=
  Program.runs_bind (runs_readFile h) Program.runs_pure

theorem runs_check {α : Type} {x : Except ClientComponentError α} : (check x).Runs s (x.mapError .clientComponent) s :=
  Program.runs_ofExcept

theorem runs_check_ok {α : Type} {x : Except ClientComponentError α} {a : α} (h : x = .ok a) : (check x).Runs s (.ok a) s := by
  subst h
  exact runs_check

theorem runs_check_error {α : Type} {x : Except ClientComponentError α} {e : ClientComponentError} (h : x = .error e) :
    (check x).Runs s (.error (.clientComponent e)) s := by
  subst h
  exact runs_check

theorem runs_readJson {α : Type} {read : Repository → Option α} {a : α} (h : read s = some a) (path : Text) :
    (readJson read path).Runs s (.ok a) s :=
  Program.runs_tryCatch (runs_readFile h)

theorem runs_replaceWhole {write : Publisher Unit} (put : Repository → Repository) (h : write.Runs s (.ok ()) s) :
    (replaceWhole write put).Runs s (.ok ()) (put s) :=
  Program.runs_bind runs_unseen (Program.runs_bind runs_unseen
    (Program.runs_tryFinally (Program.runs_bind h (Program.runs_bind runs_unseen (runs_change put))) runs_unseen))

theorem runs_copyFile {α : Type} {source : Repository → Option α} (put : Repository → Repository) {a : α} (h : source s = some a) :
    (copyFile source put).Runs s (.ok ()) (put s) :=
  runs_replaceWhole put (Program.runs_bind (runs_readFile h) runs_unseen)

theorem runs_atomicWrite (put : Repository → Repository) : (atomicWrite put).Runs s (.ok ()) (put s) := runs_replaceWhole put runs_unseen

/-- The directory of a version is created. -/
theorem runs_createArtifact (content : Bytes) :
    (createArtifact component version (some content) entry).Runs s (.ok ()) (s.withArtifact component version content entry) := by
  refine Program.runs_bind runs_unseen (Program.runs_bind (runs_change _) (Program.runs_tryCatch ?_))
  refine Program.runs_bind runs_unseen (Program.runs_bind (runs_copyFile _ rfl) ?_)
  exact Program.runs_bind (runs_atomicWrite _) (runs_change _)

/-- A loop of checks raises what the first check that refuses does. -/
theorem runs_checks {α : Type} (f : α → Except ClientComponentError PUnit) (xs : List α) :
    (xs.forM (fun x => check (f x)) : Publisher PUnit).Runs s ((xs.forM f).mapError .clientComponent) s := by
  induction xs with
  | nil => exact Program.runs_pure
  | cons x xs ih =>
    show (check (f x) >>= fun _ => xs.forM (fun x => check (f x))).Runs s ((f x >>= fun _ => xs.forM f).mapError .clientComponent) s
    cases hx : f x with
    | error e => exact Program.runs_bind_error (runs_check_error rfl)
    | ok u => exact Program.runs_bind (runs_check_ok rfl) ih

/-- The manifest of a channel is read and checked. -/
theorem runs_loadManifest : (loadManifest root channel).Runs s ((loaded s channel).mapError .clientComponent) s := by
  unfold loadManifest loaded
  cases hchannel : validateChannel channel with
  | error e => exact Program.runs_bind_error (runs_check_error rfl)
  | ok u =>
    refine Program.runs_bind (runs_check_ok rfl) (Program.runs_bind (runs_isFile _) ?_)
    cases hmanifest : s.manifests channel with
    | none => exact Program.runs_pure
    | some payload =>
      refine Program.runs_bind (runs_readJson hmanifest _) ?_
      rw [ok_bind]
      dsimp only
      cases hrefuse : refuseWhen (payload.schemaVersion ≠ schemaVersion || payload.channel ≠ channel)
          (channel ++ " 客户端组件清单无效".toList) with
      | error e => exact Program.runs_bind_error (runs_check_error rfl)
      | ok u =>
        refine Program.runs_bind (runs_check_ok rfl) ?_
        have hloop := runs_checks (s := s) (fun item : Text × Entry => validateEntry item.1 item.2) payload.components
        cases hchecks : payload.components.forM (fun item : Text × Entry => validateEntry item.1 item.2) with
        | error e =>
          rw [hchecks] at hloop
          exact Program.runs_bind_error hloop
        | ok u =>
          rw [hchecks] at hloop
          exact Program.runs_bind hloop Program.runs_pure

/-- The manifest of a channel is written, after a copy of the one before. -/
theorem runs_writeManifest (hchannel : validateChannel channel = .ok ()) (manifest : Manifest) :
    (writeManifest channel manifest).Runs s (.ok ()) (s.setManifest channel { manifest with schemaVersion, channel }) := by
  refine Program.runs_bind (runs_check_ok hchannel) (Program.runs_bind (runs_isFile _) ?_)
  have hcopy : (Program.when (s.manifests channel).isSome (copyFile (fun s => s.manifests channel) id)).Runs s (.ok ()) s := by
    cases hmanifest : s.manifests channel with
    | none => exact Program.runs_pure
    | some payload => exact runs_copyFile id hmanifest
  exact Program.runs_bind hcopy (Program.runs_bind (runs_atomicWrite _) runs_unseen)

/-- The last part of a publication records the entry in a manifest that admits the version. -/
theorem runs_register (hchannel : validateChannel channel = .ok ()) {digest : Text} {manifest : Manifest}
    (h : admitted s channel component version digest = .ok manifest) :
    (register root channel component version digest entry).Runs s (.ok entry)
      (s.setManifest channel { schemaVersion, channel, components := Dict.set manifest.components component entry }) := by
  obtain ⟨manifest', hloaded, h⟩ := bind_eq_ok.1 h
  obtain ⟨_, hcompared, h⟩ := bind_eq_ok.1 h
  obtain rfl := Except.ok.inj h
  have hload : (loadManifest root channel).Runs s _ s := runs_loadManifest
  rw [hloaded] at hload
  refine Program.runs_bind runs_unseen (Program.runs_bind runs_unseen (Program.runs_bind runs_unseen ?_))
  refine Program.runs_bind hload (Program.runs_bind (runs_check_ok hcompared) ?_)
  exact Program.runs_bind (runs_writeManifest hchannel _) Program.runs_pure

/-- The last part of a publication changes nothing when the manifest does not admit the version. -/
theorem runs_register_refused {digest : Text} {e : ClientComponentError} (h : admitted s channel component version digest = .error e) :
    (register root channel component version digest entry).Runs s (.error (.clientComponent e)) s := by
  have hload : (loadManifest root channel).Runs s _ s := runs_loadManifest
  refine Program.runs_bind runs_unseen (Program.runs_bind runs_unseen (Program.runs_bind runs_unseen ?_))
  unfold admitted at h
  cases hloaded : loaded s channel with
  | error e' =>
    rw [hloaded] at h hload
    cases Except.error.inj h
    exact Program.runs_bind_error hload
  | ok manifest =>
    rw [hloaded] at h hload
    refine Program.runs_bind hload ?_
    rw [ok_bind] at h
    cases hcompared : compareListed manifest component version digest with
    | error e' =>
      rw [hcompared] at h
      cases Except.error.inj h
      exact Program.runs_bind_error (runs_check_error rfl)
    | ok u =>
      rw [hcompared] at h
      nomatch h

/-- A directory that holds a file is compared with the file and the entry. -/
theorem runs_compareArtifact {digest : Text} {old : Metadata} {content : Bytes} (hold : s.metadata component version = some old)
    (hfile : s.file component version = some content) :
    (compareArtifact root sha256 component version digest entry).Runs s
      ((refuseWhen (!(decide (sha256 content = digest) && decide (old.artifact = entry)))
        ("不可变组件 ".toList ++ component ++ ['/'] ++ version ++ " 已存在且内容不同，拒绝覆盖".toList)).mapError .clientComponent) s := by
  have hsame : (if (s.file component version).isSome = true then (do
      let installed ← fileDigest sha256 (fun s => s.file component version)
      pure (decide (installed = digest) && decide (old.artifact = entry)))
    else pure false : Publisher Bool).Runs s (.ok (decide (sha256 content = digest) && decide (old.artifact = entry))) s := by
    rw [hfile]
    exact Program.runs_bind (runs_fileDigest hfile) Program.runs_pure
  exact Program.runs_bind (runs_readJson hold _) (Program.runs_bind (runs_isFile _) (Program.runs_bind hsame runs_check))

/-- A directory that holds the same artifact is left. -/
theorem runs_compareArtifact_same {content : Bytes}
    (hold : s.metadata component version = some { schemaVersion, component, artifact := entry })
    (hfile : s.file component version = some content) :
    (compareArtifact root sha256 component version (sha256 content) entry).Runs s (.ok ()) s := by
  have hcompare := @runs_compareArtifact root sha256 s component version entry (sha256 content) _ content hold hfile
  rwa [decide_eq_true rfl, decide_eq_true rfl] at hcompare

/-- A directory that holds another artifact refuses. -/
theorem runs_compareArtifact_other {digest : Text} {old : Metadata} {content : Bytes} (hold : s.metadata component version = some old)
    (hfile : s.file component version = some content) (hother : sha256 content ≠ digest) :
    (compareArtifact root sha256 component version digest entry).Runs s (.error (.clientComponent
      { message := "不可变组件 ".toList ++ component ++ ['/'] ++ version ++ " 已存在且内容不同，拒绝覆盖".toList })) s := by
  have hcompare := @runs_compareArtifact root sha256 s component version entry digest _ content hold hfile
  rwa [decide_eq_false hother] at hcompare

/-! ### The whole -/

/-- The part of a publication that follows the checks of its arguments: the directory of the version, and then the manifest. -/
def place (root : Text) (sha256 : Bytes → Text) (component version channel : Text) (content : Bytes) (entry : Entry)
    (targetExists : Bool) : Publisher Entry := do
  (if targetExists then compareArtifact root sha256 component version (sha256 content) entry
    else createArtifact component version (some content) entry)
  register root channel component version (sha256 content) entry

variable (root sha256) in
/-- A publication whose arguments are accepted goes on with the directory of the version. -/
theorem publish_becomes {privileged : Bool} {source : Option Source} {componentSpec : ComponentSpec} {accepted : Text} {content : Bytes}
    (h : Accepted privileged component version source channel componentSpec accepted content) :
    (publish root sha256 privileged component version source channel).Becomes s
      (place root sha256 component accepted channel content (entryOf sha256 component accepted componentSpec content)
        (s.artifacts component accepted).isSome) s := by
  obtain ⟨name, rfl, hname⟩ := h.source
  let source : Source := { name, content := some content }
  have hsource : (readFile (fun _ => some source)).Runs s (.ok source) s := runs_readFile rfl
  have hcontent : (fileSize (fun _ => source.content)).Runs s (.ok content.length) s := runs_fileSize rfl
  have hdigest : (fileDigest sha256 (fun _ => source.content)).Runs s (.ok (sha256 content)) s := runs_fileDigest rfl
  have hfile : refuseWhen ((some content).isNone || !equalsIgnoreCase name componentSpec.filename)
      (component ++ " 文件名必须是 ".toList ++ componentSpec.filename) = .ok () := by
    simp [refuseWhen, hname, pure, Except.pure]
  have hsmallest : refuseWhen (content.length = 0) "客户端组件为空或超过 512 MiB".toList = .ok () := by
    simp [refuseWhen, h.nonempty, pure, Except.pure]
  have hlargest : refuseWhen (maximumSize < content.length) "客户端组件为空或超过 512 MiB".toList = .ok () := by
    simp [refuseWhen, Nat.not_lt.mpr h.size, pure, Except.pure]
  refine (Program.becomes_bind (runs_check_ok h.root)).trans ?_
  refine (Program.becomes_bind (runs_check_ok h.spec)).trans ?_
  refine (Program.becomes_bind (runs_check_ok h.version)).trans ?_
  refine (Program.becomes_bind (runs_check_ok h.channel)).trans ?_
  refine (Program.becomes_bind hsource).trans ?_
  refine (Program.becomes_bind (runs_check_ok hfile)).trans ?_
  refine (Program.becomes_bind hcontent).trans ?_
  refine (Program.becomes_bind (runs_check_ok hsmallest)).trans ?_
  refine (Program.becomes_bind hcontent).trans ?_
  refine (Program.becomes_bind (runs_check_ok hlargest)).trans ?_
  refine (Program.becomes_bind hdigest).trans ?_
  refine (Program.becomes_bind hcontent).trans ?_
  exact Program.becomes_bind (runs_isFile _)

variable (root sha256) in
/-- A publication of a version without an artifact creates it and goes on to record it. -/
theorem publish_becomes_register {privileged : Bool} {source : Option Source} {componentSpec : ComponentSpec} {accepted : Text}
    {content : Bytes} (h : Accepted privileged component version source channel componentSpec accepted content)
    (hnew : s.artifacts component accepted = none) :
    (publish root sha256 privileged component version source channel).Becomes s
      (register root channel component accepted (sha256 content) (entryOf sha256 component accepted componentSpec content))
      (s.withArtifact component accepted content (entryOf sha256 component accepted componentSpec content)) := by
  have hplace := publish_becomes root sha256 (s := s) h
  rw [hnew] at hplace
  exact hplace.trans (Program.becomes_bind (runs_createArtifact content))

/-! ### Whatever befalls -/

section Keeps

variable {G : Repository → Prop} {F : Repository → Prop}

/-- A check that does not refuse. -/
theorem of_refuseWhen {condition : Bool} {message : Text} {u : Unit} (h : refuseWhen condition message = .ok u) : condition = false := by
  cases condition with
  | true => nomatch h
  | false => rfl

/-- The manifest of a channel, or the empty one where there is none. -/
def Loaded (channel : Text) (manifest : Manifest) (s : Repository) : Prop :=
  s.manifests channel = some manifest ∨ (s.manifests channel = none ∧ manifest = emptyManifest channel)

theorem keeps_check {α : Type} {x : Except ClientComponentError α} {J : α → Repository → Prop}
    (h : ∀ a s, x = .ok a → G s → F s → J a s) : (check x).Keeps G F J := by
  refine Program.keeps_ofExcept fun a s hx => h a s ?_
  cases x with
  | ok a' => exact congrArg Except.ok (Except.ok.inj hx)
  | error e => nomatch hx

/-- What follows a check may use that it did not refuse. -/
theorem keeps_check_bind {α β : Type} {x : Except ClientComponentError α} {f : α → Publisher β} {J : β → Repository → Prop}
    (h : ∀ a, x = .ok a → (f a).Keeps G F J) : (check x >>= f).Keeps G F J := by
  refine Program.keeps_bind (R := fun a s => F s ∧ x = .ok a) (keeps_check fun _ _ hx _ hF => ⟨hF, hx⟩) fun a => ?_
  exact Program.keeps_of_imp (fun _ _ hs => hs.2) fun hx => (h a hx).mono (fun _ _ hs => hs.1) (fun _ _ _ hs => hs)

theorem keeps_unseen : unseen.Keeps G F (fun _ => F) := by
  refine Program.keeps_operation fun s _ s' hG hF hstep => ?_
  obtain ⟨-, rfl⟩ := Prod.mk.inj (Except.ok.inj hstep)
  exact ⟨hG, hF⟩

theorem keeps_change {f : Repository → Repository} {J : Repository → Prop} (h : ∀ s, G s → F s → G (f s) ∧ J (f s)) :
    (change f).Keeps G F (fun _ => J) := by
  refine Program.keeps_operation fun s _ s' hG hF hstep => ?_
  obtain ⟨-, rfl⟩ := Prod.mk.inj (Except.ok.inj hstep)
  exact h s hG hF

theorem keeps_readFile {α : Type} {read : Repository → Option α} :
    (readFile read).Keeps G F (fun a s => F s ∧ read s = some a) := by
  refine Program.keeps_operation fun s a s' hG hF hstep => ?_
  cases hread : read s with
  | none => simp [hread] at hstep
  | some a' =>
    simp only [hread, Except.ok.injEq, Prod.mk.injEq] at hstep
    obtain ⟨rfl, rfl⟩ := hstep
    exact ⟨hG, hF, hread⟩

theorem keeps_isFile {α : Type} {read : Repository → Option α} :
    (isFile read).Keeps G F (fun found s => F s ∧ found = (read s).isSome) :=
  Program.keeps_query fun _ _ hF => ⟨hF, rfl⟩

theorem keeps_fileSize {read : Repository → Option Bytes} :
    (fileSize read).Keeps G F (fun size s => F s ∧ (read s).map List.length = some size) :=
  Program.keeps_bind keeps_readFile fun _ => Program.keeps_pure fun _ _ hs => ⟨hs.1, by rw [hs.2]; rfl⟩

theorem keeps_fileDigest {read : Repository → Option Bytes} :
    (fileDigest sha256 read).Keeps G F (fun digest s => F s ∧ (read s).map sha256 = some digest) :=
  Program.keeps_bind keeps_readFile fun _ => Program.keeps_pure fun _ _ hs => ⟨hs.1, by rw [hs.2]; rfl⟩

theorem keeps_readJson {α : Type} {read : Repository → Option α} {path : Text} :
    (readJson read path).Keeps G F (fun a s => F s ∧ read s = some a) :=
  Program.keeps_tryCatch keeps_readFile fun _ => keeps_check fun _ _ hx => nomatch hx

theorem keeps_replaceWhole {write : Publisher Unit} {put : Repository → Repository} {J : Repository → Prop}
    (hwrite : write.Keeps G F (fun _ => F)) (hput : ∀ s, G s → F s → G (put s) ∧ J (put s)) :
    (replaceWhole write put).Keeps G F (fun _ => J) := by
  refine Program.keeps_bind keeps_unseen fun _ => Program.keeps_bind keeps_unseen fun _ => ?_
  refine Program.keeps_tryFinally (Program.keeps_bind hwrite fun _ => ?_) fun _ => keeps_unseen
  exact Program.keeps_bind keeps_unseen fun _ => keeps_change hput

theorem keeps_copyFile {α : Type} {source : Repository → Option α} {put : Repository → Repository} {J : Repository → Prop}
    (hput : ∀ s, G s → F s → G (put s) ∧ J (put s)) : (copyFile source put).Keeps G F (fun _ => J) :=
  keeps_replaceWhole (Program.keeps_bind keeps_readFile fun _ => keeps_unseen.mono (fun _ _ hs => hs.1) (fun _ _ _ hs => hs)) hput

theorem keeps_atomicWrite {put : Repository → Repository} {J : Repository → Prop} (hput : ∀ s, G s → F s → G (put s) ∧ J (put s)) :
    (atomicWrite put).Keeps G F (fun _ => J) := keeps_replaceWhole keeps_unseen hput

theorem keeps_loadManifest {channel : Text} :
    (loadManifest root channel).Keeps G F (fun manifest s => F s ∧ Loaded channel manifest s) := by
  refine Program.keeps_bind (keeps_check (J := fun _ => F) fun _ _ _ _ hF => hF) fun _ => ?_
  refine Program.keeps_bind keeps_isFile fun pathExists => ?_
  split
  · refine Program.keeps_bind keeps_readJson fun payload => ?_
    refine Program.keeps_bind (keeps_check fun _ _ _ _ hF => hF) fun _ => ?_
    refine Program.keeps_bind (Program.keeps_forM fun _ _ => keeps_check fun _ _ _ _ hF => hF) fun _ => ?_
    exact Program.keeps_pure fun _ _ hs => ⟨hs.1.1, Or.inl hs.2⟩
  · rename_i hmissing
    refine Program.keeps_pure fun s _ hs => ⟨hs.1, Or.inr ⟨?_, rfl⟩⟩
    rw [hs.2] at hmissing
    simpa using hmissing

theorem keeps_writeManifest {manifest : Manifest} {J : Repository → Prop}
    (h : ∀ s, G s → F s → G (s.setManifest channel { manifest with schemaVersion, channel }) ∧
      J (s.setManifest channel { manifest with schemaVersion, channel })) :
    (writeManifest channel manifest).Keeps G F (fun _ => J) := by
  refine Program.keeps_bind (keeps_check (J := fun _ => F) fun _ _ _ _ hF => hF) fun _ => ?_
  refine Program.keeps_bind keeps_isFile fun pathExists => ?_
  refine Program.keeps_bind (R := fun _ => F) (Program.keeps_when (fun _ => ?_) fun _ _ _ hs => hs.1) fun _ => ?_
  · exact keeps_copyFile fun _ hG hs => ⟨hG, hs.1⟩
  · exact Program.keeps_bind (keeps_atomicWrite h) fun _ => keeps_unseen

/-- A complete directory takes its place, where there was none. -/
theorem keeps_createArtifact_of {J : Repository → Prop} {content : Bytes}
    (htemporary : ∀ s directory, G s → G (s.setTemporary directory))
    (hput : ∀ s, G s → s.artifacts component version = none →
      G (s.setArtifact component version (directoryOf component content entry)) ∧
        J (s.setArtifact component version (directoryOf component content entry))) :
    (createArtifact component version (some content) entry).Keeps G (fun s => s.artifacts component version = none) (fun _ => J) := by
  refine Program.keeps_bind keeps_unseen fun _ => ?_
  refine Program.keeps_bind (keeps_change (J := fun s => s.artifacts component version = none)
    fun s hG hF => ⟨htemporary s _ hG, hF⟩) fun _ => ?_
  refine Program.keeps_tryCatch ?_ fun e => ?_
  · refine Program.keeps_bind keeps_unseen fun _ => ?_
    refine Program.keeps_bind (keeps_copyFile (J := fun s => s.artifacts component version = none ∧
      s.temporary.file = some content) fun s hG hF => ⟨htemporary s _ hG, hF, rfl⟩) fun _ => ?_
    refine Program.keeps_bind (keeps_atomicWrite (J := fun s => s.artifacts component version = none ∧
      s.temporary = directoryOf component content entry) fun s hG hF => ⟨htemporary s _ hG, hF.1, ?_⟩) fun _ => ?_
    · exact congrArg (Directory.mk · _) hF.2
    · refine keeps_change fun s hG hF => ?_
      rw [hF.2]
      exact hput s hG hF.1
  · refine Program.keeps_bind (R := fun _ _ => True) (Program.keeps_tryCatch ?_ fun _ => ?_) fun _ => Program.keeps_raise
    · exact keeps_change fun s hG _ => ⟨htemporary s _ hG, trivial⟩
    · exact Program.keeps_pure fun _ _ _ => trivial

/-- The manifest that was loaded is written with an entry. -/
theorem keeps_record {manifest : Manifest} {J : Entry → Repository → Prop}
    (h : ∀ s, G s → F s → G (s.setManifest channel { schemaVersion, channel, components := Dict.set manifest.components component entry }) ∧
      J entry (s.setManifest channel { schemaVersion, channel, components := Dict.set manifest.components component entry })) :
    (do
      writeManifest channel { manifest with components := Dict.set manifest.components component entry }
      pure entry : Publisher Entry).Keeps G F J :=
  Program.keeps_bind (keeps_writeManifest h) fun _ => Program.keeps_pure fun _ _ hs => hs

/-- The last part of a publication writes the manifest that it loaded, with the entry. -/
theorem keeps_register {digest : Text} {J : Entry → Repository → Prop}
    (h : ∀ manifest s, compareListed manifest component version digest = .ok () → G s → F s → Loaded channel manifest s →
      G (s.setManifest channel { schemaVersion, channel, components := Dict.set manifest.components component entry }) ∧
        J entry (s.setManifest channel { schemaVersion, channel, components := Dict.set manifest.components component entry })) :
    (register root channel component version digest entry).Keeps G F J := by
  refine Program.keeps_bind keeps_unseen fun _ => Program.keeps_bind keeps_unseen fun _ => Program.keeps_bind keeps_unseen fun _ => ?_
  refine Program.keeps_bind keeps_loadManifest fun manifest => keeps_check_bind fun _ hcompared => ?_
  exact keeps_record fun s hG hs => h manifest s hcompared hG hs.1 hs.2

/-- What is kept by the part of a publication that follows the checks is kept by the whole. -/
theorem keeps_publish_of {privileged : Bool} {source : Option Source} {J : Entry → Repository → Prop}
    (h : ∀ componentSpec accepted content, Accepted privileged component version source channel componentSpec accepted content →
      ∀ targetExists, (place root sha256 component accepted channel content (entryOf sha256 component accepted componentSpec content)
        targetExists).Keeps G (fun s => targetExists = (s.artifacts component accepted).isSome) J) :
    (publish root sha256 privileged component version source channel).Keeps G (fun _ => True) J := by
  refine keeps_check_bind fun _ hroot => keeps_check_bind fun componentSpec hspec => keeps_check_bind fun accepted hversion => ?_
  refine keeps_check_bind fun _ hchannel => ?_
  refine Program.keeps_bind keeps_readFile fun argument => keeps_check_bind fun _ hfile => ?_
  refine Program.keeps_bind keeps_fileSize fun smallest => keeps_check_bind fun _ hnonempty => ?_
  refine Program.keeps_bind keeps_fileSize fun largest => keeps_check_bind fun _ hsize => ?_
  refine Program.keeps_bind keeps_fileDigest fun digest => Program.keeps_bind keeps_fileSize fun size => ?_
  refine Program.keeps_of_imp (φ := ((((source = some argument ∧ argument.content.map List.length = some smallest) ∧
    argument.content.map List.length = some largest) ∧ argument.content.map sha256 = some digest) ∧
      argument.content.map List.length = some size)) (fun _ _ hs => ?_) fun harguments => ?_
  · exact ⟨⟨⟨⟨hs.1.1.1.1.2, hs.1.1.1.2⟩, hs.1.1.2⟩, hs.1.2⟩, hs.2⟩
  · obtain ⟨⟨⟨⟨hargument, hsmallest⟩, hlargest⟩, hdigest⟩, hlength⟩ := harguments
    obtain ⟨name, contents⟩ := argument
    obtain ⟨content, rfl, rfl⟩ := Option.map_eq_some_iff.1 hsmallest
    obtain rfl := Option.some.inj hlargest
    obtain rfl := Option.some.inj hdigest
    obtain rfl := Option.some.inj hlength
    refine Program.keeps_bind keeps_isFile fun targetExists => ?_
    refine (h componentSpec accepted content ?_ targetExists).mono (fun _ _ hs => hs.2) (fun _ _ _ hs => hs)
    exact {
      root := hroot
      spec := hspec
      version := hversion
      channel := hchannel
      source := ⟨name, hargument, by simpa using of_refuseWhen hfile⟩
      nonempty := by simpa using of_refuseWhen hnonempty
      size := by simpa using of_refuseWhen hsize }

theorem keeps_verifyEntry : (verifyEntry sha256 component entry).Keeps G F (fun _ => F) := by
  refine keeps_check_bind fun _ _ => Program.keeps_bind keeps_isFile fun present => ?_
  refine Program.keeps_bind (R := fun _ => F) ?_ fun sized => keeps_check_bind fun _ _ => ?_
  · split
    · exact Program.keeps_bind keeps_fileSize fun _ => Program.keeps_pure fun _ _ hs => hs.1.1
    · exact Program.keeps_pure fun _ _ hs => hs.1
  · exact Program.keeps_bind keeps_fileDigest fun _ => keeps_check fun _ _ _ _ hs => hs.1

/-- A promotion writes the stable manifest with the entry of the test channel. -/
theorem keeps_promote_of {privileged : Bool}
    (h : ∀ test stable entry s, Dict.get test.components component = some entry → compareStable stable component entry = .ok () → G s →
      Loaded "test".toList test s → Loaded "stable".toList stable s → G (s.setManifest "stable".toList
        { schemaVersion, channel := "stable".toList, components := Dict.set stable.components component entry })) :
    (promote root sha256 privileged component).Keeps G (fun _ => True) (fun _ _ => True) := by
  refine keeps_check_bind fun _ _ => keeps_check_bind fun _ _ => Program.keeps_bind keeps_loadManifest fun test => ?_
  refine keeps_check_bind fun entry hentry => ?_
  have hlisted : Dict.get test.components component = some entry := by
    cases hget : Dict.get test.components component with
    | none =>
      rw [hget] at hentry
      nomatch hentry
    | some entry' =>
      rw [hget] at hentry
      exact congrArg some (Except.ok.inj hentry)
  refine Program.keeps_bind keeps_verifyEntry fun _ => Program.keeps_bind keeps_loadManifest fun stable => ?_
  refine keeps_check_bind fun _ hcompared => keeps_record fun s hG hs => ⟨?_, trivial⟩
  exact h test stable entry s hlisted hcompared hG hs.1.2 hs.2

end Keeps

end Scbl.Manager
