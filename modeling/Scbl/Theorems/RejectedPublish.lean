import Scbl.Lemmas.Publishing
import Scbl.Theorems.Publication

/-!
# What a rejected publication leaves

A publication creates the directory of its version before it compares the version with the published one. When the manifest then refuses
the version, the directory stays, and the version cannot be published with another file any more. Every other rejection comes before the
first lasting write.
-/

namespace Scbl.Manager

open Scbl.Lib

/-- The manifests and the artifacts are as they were, and every later call goes as if nothing had happened. -/
structure Unchanged (root : Text) (sha256 : Bytes → Text) (before after : Repository) : Prop where
  manifests : after.manifests = before.manifests
  artifacts : after.artifacts = before.artifacts
  later : ∀ call, step root sha256 after call = step root sha256 before call

/-- A file is published as a version that has no artifact, in a channel whose manifest refuses it. -/
def RefusedLate (sha256 : Bytes → Text) (s : Repository) (privileged : Bool) (component version : Text) (source : Option Source)
    (channel : Text) : Prop :=
  ∃ componentSpec accepted content error, Accepted privileged component version source channel componentSpec accepted content ∧
    s.artifacts component accepted = none ∧ admitted s channel component accepted (sha256 content) = .error error

/-- A file is published as a version that has no artifact, in a channel with a manifest, which may turn out to be unreadable. -/
def ReadsLate (s : Repository) (privileged : Bool) (component version : Text) (source : Option Source) (channel : Text) : Prop :=
  ∃ componentSpec accepted content, Accepted privileged component version source channel componentSpec accepted content ∧
    s.artifacts component accepted = none ∧ s.manifests channel ≠ none

namespace RejectionAux

variable {root : Text} {sha256 : Bytes → Text} {s : Repository} {privileged : Bool} {component version channel : Text}
  {source : Option Source}

theorem unchanged_refl (s : Repository) : Unchanged root sha256 s s := ⟨rfl, rfl, fun _ => rfl⟩

/-! ### Writes that only the system makes fail -/

section Writes

variable {F : Repository → Prop} {α : Type}

/-- The program keeps a fact, and raises no error of its own. -/
def OsOnly (F : Repository → Prop) (m : Publisher α) : Prop :=
  m.Meets (fun _ s => F s) (fun _ _ s => F s) (fun e _ s => e = .os ∧ F s) (fun _ => True)

theorem osOnly_change {f : Repository → Repository} (h : ∀ s, F s → F (f s)) : OsOnly F (change f) := by
  refine Program.meets_operation_any (J := fun _ s => F s) ?_ nofun (fun _ s _ hs => ⟨rfl, hs⟩) (fun _ _ _ => trivial)
  intro s _ s' hs hstep
  obtain ⟨-, rfl⟩ := Prod.mk.inj (Except.ok.inj hstep)
  exact h s hs

theorem osOnly_unseen : OsOnly F unseen := osOnly_change (f := id) fun _ hs => hs

theorem osOnly_readFile {read : Repository → Option α} : OsOnly F (readFile read) := by
  refine Program.meets_operation_any (J := fun _ s => F s) ?_ ?_ (fun _ s _ hs => ⟨rfl, hs⟩) (fun _ _ _ => trivial)
  · intro s a s' hs hstep
    split at hstep
    · obtain ⟨-, rfl⟩ := Prod.mk.inj (Except.ok.inj hstep)
      exact hs
    · nomatch hstep
  · intro _ s e hs hstep
    split at hstep
    · nomatch hstep
    · exact ⟨(Except.error.inj hstep).symm, hs⟩

theorem OsOnly.bind {β : Type} {m : Publisher β} {f : β → Publisher α} (hm : OsOnly F m) (hf : ∀ b, OsOnly F (f b)) :
    OsOnly F (m >>= f) :=
  Program.meets_bind hm hf

/-- After an error of the system a handler ends with it. -/
theorem OsOnly.handle {m : Publisher α} {last : Publisher Unit} (hm : OsOnly F m) (hlast : OsOnly F last) :
    OsOnly F (m.tryCatch (fun e => do
      last
      .raise e)) := by
  refine Program.meets_tryCatch hm fun e => Program.meets_of_imp (fun _ _ hs => hs.1) fun he => ?_
  subst he
  exact Program.meets_bind (hlast.from fun _ _ hs => hs.2) fun _ => Program.meets_raise fun _ _ hs => ⟨rfl, hs⟩

theorem osOnly_replaceWhole {write : Publisher Unit} {put : Repository → Repository} (hwrite : OsOnly F write)
    (hput : ∀ s, F s → F (put s)) : OsOnly F (replaceWhole write put) := by
  refine osOnly_unseen.bind fun _ => osOnly_unseen.bind fun _ => ?_
  refine ((hwrite.bind fun _ => osOnly_unseen.bind fun _ => osOnly_change hput).handle osOnly_unseen).bind fun _ => ?_
  exact osOnly_unseen.bind fun _ => Program.meets_pure fun _ _ hs => hs

theorem osOnly_copyFile {source : Repository → Option α} {put : Repository → Repository} (hput : ∀ s, F s → F (put s)) :
    OsOnly F (copyFile source put) :=
  osOnly_replaceWhole (osOnly_readFile.bind fun _ => osOnly_unseen) hput

theorem osOnly_atomicWrite {put : Repository → Repository} (hput : ∀ s, F s → F (put s)) : OsOnly F (atomicWrite put) :=
  osOnly_replaceWhole osOnly_unseen hput

/-- A directory is created, and the manifests are left. -/
theorem osOnly_createArtifact {content : Option Bytes} {entry : Entry} {manifests : Text → Option Manifest} :
    OsOnly (fun s => s.manifests = manifests) (createArtifact component version content entry) := by
  refine osOnly_unseen.bind fun _ => OsOnly.bind (osOnly_change ?_) fun _ => OsOnly.handle ?_ ?_
  · exact fun _ hs => hs
  · refine osOnly_unseen.bind fun _ => OsOnly.bind (osOnly_copyFile ?_) fun _ => OsOnly.bind (osOnly_atomicWrite ?_) fun _ =>
      osOnly_change ?_
    · exact fun _ hs => hs
    · exact fun _ hs => hs
    · exact fun _ hs => hs
  · refine Program.meets_tryCatch (osOnly_change ?_) fun _ => Program.meets_pure fun _ _ hs => hs.2
    exact fun _ hs => hs

/-- A manifest is written in a channel. -/
theorem osOnly_writeManifest (hchannel : validateChannel channel = .ok ()) (manifest : Manifest) :
    OsOnly (fun _ => True) (writeManifest channel manifest) := by
  rw [writeManifest, hchannel]
  refine Program.meets_bind (R := fun _ _ _ => True) (Program.meets_pure fun _ _ _ => trivial) fun _ => ?_
  refine Program.meets_bind (R := fun _ _ _ => True) (Program.meets_query fun _ _ _ => trivial) fun pathExists => ?_
  refine OsOnly.bind (Program.meets_when (fun _ => osOnly_copyFile fun _ _ => trivial) fun _ _ _ _ => trivial) fun _ => ?_
  exact (osOnly_atomicWrite fun _ _ => trivial).bind fun _ => osOnly_unseen

end Writes

/-! ### What befalls before a write -/

section Quiet

open PublicationAux

variable {α β : Type} {s₀ : Repository}

/-- The program raises no error of its own once the repository has changed. -/
def Quiet (s₀ : Repository) (P : Repository → Prop) (m : Publisher α) : Prop :=
  m.Meets (fun _ s => P s) (fun _ _ _ => True) (fun e _ s => (∃ error, e = .clientComponent error) → s = s₀) (fun _ => True)

theorem OsOnly.quiet {F : Repository → Prop} {m : Publisher α} (h : OsOnly F m) : Quiet s₀ F m := by
  refine h.weaken (fun _ _ hs => hs) (fun _ _ _ _ => trivial) ?_ (fun _ hs => hs)
  rintro e _ s ⟨rfl, -⟩ ⟨error, herror⟩
  nomatch herror

/-- A first part that changes nothing. -/
theorem quiet_bind {m : Publisher β} {f : β → Publisher α} {R : β → Repository → Prop}
    (hm : m.Keeps (fun s => s = s₀) (fun _ => True) R) (hf : ∀ b, R b s₀ → Quiet s₀ (fun s => s = s₀) (f b)) :
    Quiet s₀ (fun s => s = s₀) (m >>= f) := by
  refine Program.meets_bind (R := fun b _ s => s = s₀ ∧ R b s) (hm.weaken (fun _ _ hs => ⟨hs, trivial⟩) (fun _ _ _ hs => hs)
    (fun _ _ _ hs _ => hs) fun _ _ => trivial) fun b => ?_
  refine Program.meets_of_imp (φ := R b s₀) ?_ fun hb => (hf b hb).from fun _ _ hs => hs.1
  rintro _ s ⟨rfl, hb⟩
  exact hb

/-- A first check. -/
theorem quiet_check {x : Except ClientComponentError β} {f : β → Publisher α}
    (hf : ∀ b, x = .ok b → Quiet s₀ (fun s => s = s₀) (f b)) : Quiet s₀ (fun s => s = s₀) (check x >>= f) :=
  quiet_bind (R := fun b _ => x = .ok b) (keeps_check fun _ _ hx _ _ => hx) hf

/-- A first part that raises no error of its own. -/
theorem OsOnly.quiet_bind {F : Repository → Prop} {m : Publisher β} {f : β → Publisher α} (hm : OsOnly F m) (hf : ∀ b, Quiet s₀ F (f b)) :
    Quiet s₀ F (m >>= f) := by
  refine Program.meets_bind (hm.weaken (fun _ _ hs => hs) (fun _ _ _ hs => hs) ?_ fun _ hs => hs) hf
  rintro e _ s ⟨rfl, -⟩ ⟨error, herror⟩
  nomatch herror

theorem keeps_compare {G : Repository → Prop} {digest : Text} {entry : Entry} :
    (compareArtifact root sha256 component version digest entry).Keeps G (fun _ => True) (fun _ _ => True) := by
  refine Program.keeps_bind keeps_readJson fun old => Program.keeps_bind keeps_isFile fun present => ?_
  refine Program.keeps_bind (R := fun _ _ => True) ?_ fun same => keeps_check fun _ _ _ _ _ => trivial
  split
  · exact Program.keeps_bind keeps_fileDigest fun installed => Program.keeps_pure fun _ _ _ => trivial
  · exact Program.keeps_pure fun _ _ _ => trivial

/-- The entry is written into a manifest. -/
theorem quiet_record (hchannel : validateChannel channel = .ok ()) (manifest : Manifest) (entry : Entry) {P : Repository → Prop} :
    Quiet s₀ P (do
      writeManifest channel manifest
      pure entry) :=
  ((osOnly_writeManifest hchannel manifest).bind fun _ => Program.meets_pure fun _ _ _ => trivial).quiet.from fun _ _ _ => trivial

/-- Where nothing has changed, recording the entry changes nothing unless the system makes it fail. -/
theorem quiet_register (hchannel : validateChannel channel = .ok ()) {digest : Text} {entry : Entry} :
    Quiet s₀ (fun s => s = s₀) (register root channel component version digest entry) := by
  refine quiet_bind (R := fun _ _ => True) keeps_unseen fun _ _ => quiet_bind (R := fun _ _ => True) keeps_unseen fun _ _ => ?_
  refine quiet_bind (R := fun _ _ => True) keeps_unseen fun _ _ => quiet_bind keeps_loadManifest fun manifest _ => ?_
  exact quiet_check fun _ _ => quiet_record hchannel _ _

/-- Where there is no manifest, recording the entry is not refused. -/
theorem quiet_register_first (hchannel : validateChannel channel = .ok ()) {digest : Text} {entry : Entry} :
    Quiet s₀ (fun s => s.manifests channel = none) (register root channel component version digest entry) := by
  refine osOnly_unseen.quiet_bind fun _ => osOnly_unseen.quiet_bind fun _ => osOnly_unseen.quiet_bind fun _ => ?_
  refine Program.meets_bind (R := fun manifest _ _ => manifest = emptyManifest channel) ?_ fun manifest => ?_
  · rw [loadManifest, hchannel]
    refine Program.meets_bind (R := fun _ _ s => s.manifests channel = none) (Program.meets_pure fun _ _ hs => hs) fun _ => ?_
    refine Program.meets_bind (R := fun pathExists _ s => pathExists = false) (Program.meets_query fun _ s hs => ?_) fun pathExists => ?_
    · exact congrArg Option.isSome hs
    · refine Program.meets_of_imp (fun _ _ hs => hs) fun hmissing => ?_
      subst hmissing
      exact Program.meets_pure fun _ _ _ => rfl
  · refine Program.meets_of_imp (fun _ _ hs => hs) fun hmanifest => ?_
    subst hmanifest
    refine Program.meets_bind (R := fun _ _ _ => True) (Program.meets_pure fun _ _ _ => trivial) fun _ => ?_
    exact (quiet_record hchannel _ _).from fun _ _ _ => trivial

variable (root sha256) in
/-- A publication that does not read a manifest after it created a directory is not refused after a change, whatever befalls. -/
theorem quiet_publish (h : ¬ ReadsLate s₀ privileged component version source channel) :
    Quiet s₀ (fun s => s = s₀) (publish root sha256 privileged component version source channel) := by
  refine quiet_check fun _ hroot => quiet_check fun componentSpec hspec => quiet_check fun accepted hversion => ?_
  refine quiet_check fun _ hchannel => quiet_bind keeps_readFile fun argument hargument => quiet_check fun _ hfile => ?_
  refine quiet_bind keeps_fileSize fun smallest hsmallest => quiet_check fun _ hnonempty => ?_
  refine quiet_bind keeps_fileSize fun largest hlargest => quiet_check fun _ hsize => ?_
  refine quiet_bind keeps_fileDigest fun digest hdigest => quiet_bind keeps_fileSize fun size _ => ?_
  refine quiet_bind keeps_isFile fun targetExists hexists => ?_
  obtain ⟨name, contents⟩ := argument
  obtain ⟨content, rfl, rfl⟩ := Option.map_eq_some_iff.1 hsmallest.2
  obtain ⟨_, hcontent, rfl⟩ := Option.map_eq_some_iff.1 hlargest.2
  obtain rfl := Option.some.inj hcontent
  have haccepted : Accepted privileged component version source channel componentSpec accepted content := {
    root := hroot
    spec := hspec
    version := hversion
    channel := hchannel
    source := ⟨name, hargument.2, by simpa using of_refuseWhen hfile⟩
    nonempty := by simpa using of_refuseWhen hnonempty
    size := by simpa using of_refuseWhen hsize }
  cases hartifact : s₀.artifacts component accepted with
  | some directory =>
    rw [hartifact] at hexists
    obtain rfl := hexists.2
    exact quiet_bind keeps_compare fun _ _ => quiet_register hchannel
  | none =>
    have hmissing : s₀.manifests channel = none := by
      by_contra hsome
      exact h ⟨componentSpec, accepted, content, haccepted, hartifact, hsome⟩
    rw [hartifact] at hexists
    obtain rfl := hexists.2
    have hcreate : OsOnly (fun s => s.manifests = s₀.manifests) (createArtifact component accepted (some content)
      { version := accepted, sha256 := digest, size, url := artifactUrl component accepted componentSpec.filename,
        minLauncherVersion := [], updateMode := componentSpec.updateMode, required := true }) := osOnly_createArtifact
    refine (hcreate.quiet_bind fun _ => ?_).from fun _ s hs => congrArg Repository.manifests hs
    exact (quiet_register_first hchannel).from fun _ s hs => (congrFun hs channel).trans hmissing

end Quiet

/-! ### What is left -/

section Late

variable {componentSpec : ComponentSpec} {accepted : Text} {content : Bytes} {error : ClientComponentError} {after : Repository}

/-- A directory that was created is a change. -/
theorem not_unchanged (hnew : s.artifacts component accepted = none) {entry : Entry} :
    ¬ Unchanged root sha256 s (s.withArtifact component accepted content entry) := by
  intro h
  have hartifact := congrFun (congrFun h.artifacts component) accepted
  rw [artifacts_withArtifact, hnew] at hartifact
  nomatch hartifact

variable (root) in
/-- A publication that is refused by the manifest after its directory was created. -/
theorem runs_late (h : Accepted privileged component version source channel componentSpec accepted content)
    (hnew : s.artifacts component accepted = none) (hrefused : admitted s channel component accepted (sha256 content) = .error error) :
    (publish root sha256 privileged component version source channel).Runs s (.error (.clientComponent error))
      (s.withArtifact component accepted content (entryOf sha256 component accepted componentSpec content)) :=
  (publish_becomes_register root sha256 h hnew).runs (runs_register_refused hrefused)

/-- When nothing befalls it, a publication with a new directory is refused only by the manifest. -/
theorem admitted_of_run (h : Accepted privileged component version source channel componentSpec accepted content)
    (hnew : s.artifacts component accepted = none)
    (hrun : (publish root sha256 privileged component version source channel).run [] s = .raised (.clientComponent error) [] after) :
    ∃ e, admitted s channel component accepted (sha256 content) = .error e := by
  cases hadmitted : admitted s channel component accepted (sha256 content) with
  | error e => exact ⟨e, rfl⟩
  | ok manifest =>
    have hruns := (publish_becomes_register root sha256 h hnew).runs (runs_register h.channel hadmitted)
    rw [hruns.run] at hrun
    nomatch hrun

variable (root sha256) in
/-- Reading the manifest may fail after the directory was created. -/
theorem may_refuse_late (h : Accepted privileged component version source channel componentSpec accepted content)
    (hnew : s.artifacts component accepted = none) (hsome : s.manifests channel ≠ none) :
    (publish root sha256 privileged component version source channel).May s (fun r after =>
      (∃ error, r = .error (.clientComponent error)) ∧
        after = s.withArtifact component accepted content (entryOf sha256 component accepted componentSpec content)) := by
  refine (publish_becomes_register root sha256 h hnew).may ?_
  refine (Program.becomes_bind runs_unseen).may ((Program.becomes_bind runs_unseen).may ((Program.becomes_bind runs_unseen).may ?_))
  refine Program.may_bind ((Program.becomes_bind (runs_check_ok h.channel)).may ((Program.becomes_bind (runs_isFile _)).may ?_))
  have hfound : ((s.withArtifact component accepted content (entryOf sha256 component accepted componentSpec content)).manifests
      channel).isSome = true := Option.isSome_iff_ne_none.2 hsome
  rw [hfound]
  refine Program.may_bind (Program.may_tryCatch (Program.may_fail 0 ((runs_check_error rfl).may ?_)))
  exact ⟨⟨_, rfl⟩, rfl⟩

end Late

end RejectionAux

open RejectionAux

/-- A publication that raises an error of its own has changed nothing, when nothing befalls it, exactly when the arguments are refused,
the version has an artifact, or the manifest admits the version; and whatever befalls it, exactly when the arguments are refused, the
version has an artifact, or the channel has no manifest yet. -/
theorem rejected_publish_unchanged_iff (root : Text) (sha256 : Bytes → Text) (s : Repository) (privileged : Bool)
    (component version : Text) (source : Option Source) (channel : Text) :
    ((∀ error after, (publish root sha256 privileged component version source channel).run [] s =
          .raised (.clientComponent error) [] after → Unchanged root sha256 s after) ↔
        ¬ RefusedLate sha256 s privileged component version source channel) ∧
      ((∀ befalls error rest after, (publish root sha256 privileged component version source channel).run befalls s =
          .raised (.clientComponent error) rest after → Unchanged root sha256 s after) ↔
        ¬ ReadsLate s privileged component version source channel) := by
  have hquiet : ¬ ReadsLate s privileged component version source channel → ∀ befalls error rest after,
      (publish root sha256 privileged component version source channel).run befalls s = .raised (.clientComponent error) rest after →
        Unchanged root sha256 s after := by
    intro h befalls error rest after hrun
    have hend := quiet_publish root sha256 h befalls s rfl
    rw [hrun] at hend
    rw [hend ⟨error, rfl⟩]
    exact unchanged_refl s
  refine ⟨⟨?_, ?_⟩, ⟨?_, hquiet⟩⟩
  · rintro h ⟨componentSpec, accepted, content, error, haccepted, hnew, hrefused⟩
    exact not_unchanged hnew (h error _ (runs_late root haccepted hnew hrefused).run)
  · intro h error after hrun
    by_cases hlate : ReadsLate s privileged component version source channel
    · obtain ⟨componentSpec, accepted, content, haccepted, hnew, -⟩ := hlate
      obtain ⟨e, hrefused⟩ := admitted_of_run haccepted hnew hrun
      exact absurd ⟨componentSpec, accepted, content, e, haccepted, hnew, hrefused⟩ h
    · exact hquiet hlate [] error [] after hrun
  · rintro h ⟨componentSpec, accepted, content, haccepted, hnew, hsome⟩
    obtain ⟨befalls, r, after, ⟨⟨error, rfl⟩, rfl⟩, hrun⟩ := may_refuse_late root sha256 haccepted hnew hsome
    exact not_unchanged hnew (h _ error [] _ (hrun []))

namespace RejectionAux

/-- A digest of two files. -/
def digestOf (content : Bytes) : Text := List.replicate 64 (if content = [1] then '1' else '2')

def hooksSpec : ComponentSpec := { filename := "uplay_r1_loader.dll".toList, updateMode := "before-game-start".toList }

/-- The hooks are published in the stable channel, in version 2.0. -/
def released : Repository :=
  Repository.empty.setManifest "stable".toList
    { schemaVersion, channel := "stable".toList,
      components := [("hooks".toList, entryOf digestOf "hooks".toList "2.0".toList hooksSpec [2])] }

/-- A file of the hooks. -/
def hooksFile (content : Bytes) : Option Source := some { name := "uplay_r1_loader.dll".toList, content := some content }

theorem hooks_accepted {channel : Text} (hchannel : validateChannel channel = .ok ()) {content : Bytes} (hcontent : content.length = 1) :
    Accepted true "hooks".toList "1.0".toList (hooksFile content) channel hooksSpec "1.0".toList content where
  root := rfl
  spec := by decide
  version := by decide
  channel := hchannel
  source := ⟨_, rfl, by decide⟩
  nonempty := by omega
  size := by
    rw [hcontent]
    decide

end RejectionAux

/-- The wrong file, published as version 1.0 where 2.0 is published, is refused as a downgrade; the right file is then refused as another
content of the same version, also in a channel that has no version. -/
theorem rejected_publish_unchanged_false :
    ∃ after, (publish [] digestOf true "hooks".toList "1.0".toList (hooksFile [1]) "stable".toList).run [] released =
        .raised (.clientComponent { message := "拒绝降级 hooks：当前 2.0，上传 1.0".toList }) [] after ∧
      released.artifacts "hooks".toList "1.0".toList = none ∧ after.artifacts "hooks".toList "1.0".toList ≠ none ∧
      (publish [] digestOf true "hooks".toList "1.0".toList (hooksFile [2]) "test".toList).run [] after =
        .raised (.clientComponent { message := "不可变组件 ".toList ++ "hooks".toList ++ ['/'] ++ "1.0".toList ++
          " 已存在且内容不同，拒绝覆盖".toList }) [] after := by
  have hrefused : admitted released "stable".toList "hooks".toList "1.0".toList (digestOf [1]) =
      .error { message := "拒绝降级 hooks：当前 2.0，上传 1.0".toList } := by decide
  refine ⟨_, (runs_late _ (hooks_accepted rfl rfl) rfl hrefused).run, rfl, ?_, ?_⟩
  · rw [artifacts_withArtifact]
    exact nofun
  · refine Program.Runs.run ((publish_becomes _ _ (hooks_accepted rfl rfl)).runs (Program.runs_bind_error ?_))
    exact runs_compareArtifact_other (metadata_withArtifact [1]) (file_withArtifact [1]) (by decide)

end Scbl.Manager
