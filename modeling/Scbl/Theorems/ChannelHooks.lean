import Scbl.Theorems.PackagedVersions

/-!
# The hooks of the test channel

A component that the package holds in the version that is offered is left out of the result of the check, and hooks that are left out
count as missing from the manifest.
-/

namespace Scbl.Launcher

open Scbl.Lib ClientComponentUpdateService

abbrev installedVersions (m : Installation) : Versions := readInstalledComponentVersions m.channel.name m.packageManifest m.componentState

/-- The version that is taken for installed, with the digest that is recorded for it. -/
def installedComponent (m : Installation) (name : Text) : Option (Text × Text) := Dict.get (installedVersions m) (upperName name)

/-- An entry as it is in the manifest, where it may be `null`. -/
def named (item : Text × ClientComponentDefinition) : Text × Option ClientComponentDefinition := (item.1, some item.2)

def isHooks (item : Text × ClientComponentDefinition) : Bool := equalsIgnoreCase item.1 hooksComponentName

/-- The version is recorded with another digest than that of the file that is offered. -/
def SameVersionOtherFile (m : Installation) (item : Text × ClientComponentDefinition) : Prop :=
  ∃ installed, installedComponent m item.1 = some installed ∧ compareComponentVersions installed.1 item.2.version = .ok .eq ∧
    equalsIgnoreCase installed.1 item.2.version ∧ isSha256 installed.2 ∧ !equalsIgnoreCase installed.2 (trim item.2.sha256)

/-- The package holds the version that is offered, and nothing is recorded. -/
def HeldByPackage (m : Installation) (item : Text × ClientComponentDefinition) : Prop :=
  ∃ installed, installedComponent m item.1 = some installed ∧ compareComponentVersions installed.1 item.2.version = .ok .eq ∧
    isBlank installed.2

section

variable (sha256 : Bytes → Text) (uris : Uris) (m : Installation) (e : Surroundings)

/-- An entry passes the checks of a definition, fits the launcher, is no older than what is installed, and its file can be downloaded. -/
structure ValidEntry (item : Text × ClientComponentDefinition) : Prop where
  valid : validateDefinition uris e.manifestUri item.1 (some item.2) = .ok { item.2 with sha256 := trim item.2.sha256 }
  compatible : ensureLauncherCompatibility e.launcherVersion item.2.minLauncherVersion = .ok ()
  notOlder : ∀ installed, installedComponent m item.1 = some installed → ∃ o, compareComponentVersions installed.1 item.2.version = .ok o ∧ o ≠ .gt
  download : ∃ source payload, resolveAndValidateSourceUri uris e.manifestUri item.2.url = .ok source ∧ e.download source = some payload ∧
    (0 < item.2.size → (payload.length : Int) = item.2.size) ∧ equalsIgnoreCase (sha256 payload) (trim item.2.sha256)

/-- A valid manifest of the channel is served, and files can be written. -/
structure ServesValid (components : List (Text × ClientComponentDefinition)) : Prop where
  served : ∃ manifest, e.served = .ok (some manifest) ∧ manifest.schemaVersion = supportedSchemaVersion ∧
    equalsIgnoreCase manifest.channel m.channel.name ∧ manifest.components = some (components.map named)
  entries : ∀ item ∈ components, ValidEntry sha256 uris m e item
  canWrite : ∀ path, e.canWrite path = true

/-- The hooks are resolved in a version that is offered. -/
def ResolvesHooks (components : List (Text × ClientComponentDefinition)) : Prop :=
  ∃ item ∈ components, isHooks item ∧
    ∃ component, resolveHooksForSelectedChannel sha256 uris m e = .ok (some component) ∧ component.version = item.2.version

/-- The exception for a manifest without hooks. -/
def hooksMissing : ReconcileException := invalidData "测试通道组件清单缺少必需的 hooks 组件。".toList

end

namespace ChannelHooksAux

variable {sha256 : Bytes → Text} {uris : Uris} {m : Installation} {e : Surroundings} {item : Text × ClientComponentDefinition}

/-! ### One entry -/

/-- A file that can be downloaded is in the cache, or comes there. -/
theorem ensureCached_of_valid (hvalid : ValidEntry sha256 uris m e item) (hwrite : ∀ path, e.canWrite path = true) :
    ∃ component, ensureCachedComponent sha256 uris m e item.1 { item.2 with sha256 := trim item.2.sha256 } = .ok component ∧
      component.version = item.2.version := by
  obtain ⟨source, payload, hsource, hpayload, hsize, hhash⟩ := hvalid.download
  obtain ⟨spec, hspec, -⟩ := bind_eq_ok.1 hvalid.valid
  have hspec : (findSupported item.1).elim (.error .nullReference) .ok = (.ok spec : Check ComponentSpec) := by
    cases hfound : findSupported item.1 with
    | none => rw [hfound] at hspec; nomatch hspec
    | some found => rw [hfound] at hspec; exact hspec
  have hupper : equalsIgnoreCase (sha256 payload) ((trim item.2.sha256).map Char.toUpper) = true :=
    beq_iff_eq.2 ((beq_iff_eq.1 hhash).trans (beq_iff_eq.1 (equalsIgnoreCase_upper (trim item.2.sha256))))
  have hcached : ∃ component, ensureCachedComponent sha256 uris m e item.1 { item.2 with sha256 := trim item.2.sha256 } = .ok component := by
    rw [ensureCachedComponent, hspec]
    simp only [bind, Except.bind, hsource]
    split
    · exact ⟨_, rfl⟩
    · rw [hpayload]
      simp only [Option.elim_some, hupper, hwrite]
      have hsame : ¬(0 < item.2.size ∧ (payload.length : Int) ≠ item.2.size) := fun h => h.2 (hsize h.1)
      rw [if_neg hsame]
      exact ⟨_, rfl⟩
  obtain ⟨component, hcomponent⟩ := hcached
  exact ⟨component, hcomponent, (PackagedAux.ensureCached_keeps hcomponent).2⟩

/-- What becomes of an entry that is compared with what is installed. -/
theorem alreadyProvided_of_valid (hvalid : ValidEntry sha256 uris m e item) :
    (SameVersionOtherFile m item ∧
        ∃ ex, alreadyProvided (installedVersions m) item.1 { item.2 with sha256 := trim item.2.sha256 } = .error ex) ∨
      ¬SameVersionOtherFile m item ∧
        ∃ provided, alreadyProvided (installedVersions m) item.1 { item.2 with sha256 := trim item.2.sha256 } = .ok provided ∧
          (provided = true ↔ HeldByPackage m item) := by
  cases hget : Dict.get (installedVersions m) (upperName item.1) with
  | none =>
    have hnone : ∀ installed, installedComponent m item.1 ≠ some installed := fun installed h => nomatch hget.symm.trans h
    refine .inr ⟨fun ⟨installed, h, _⟩ => hnone installed h, false, ?_, nofun, fun ⟨installed, h, _⟩ => absurd h (hnone installed)⟩
    rw [alreadyProvided, hget]
    rfl
  | some installed =>
    obtain ⟨o, hcompare, ho⟩ := hvalid.notOlder installed hget
    have hversions : compareVersions installed.1 item.2.version = .ok o := by rw [compareVersions, hcompare]; rfl
    have hof : ∀ installed', installedComponent m item.1 = some installed' → installed' = installed :=
      fun installed' h => Option.some.inj (h.symm.trans hget)
    by_cases hother : o = .eq ∧ equalsIgnoreCase installed.1 item.2.version ∧ isSha256 installed.2 ∧
        !equalsIgnoreCase installed.2 (trim item.2.sha256)
    · refine .inl ⟨⟨installed, hget, hother.1 ▸ hcompare, hother.2⟩, ?_⟩
      rw [alreadyProvided, hget]
      simp only [validateComponentProgression, bind, Except.bind, hversions, if_neg ho, if_pos hother]
      exact ⟨_, rfl⟩
    · refine .inr ⟨?_, decide (o = .eq) && isBlank installed.2, ?_, ?_⟩
      · rintro ⟨installed', hinstalled, heq, hrest⟩
        obtain rfl := hof installed' hinstalled
        exact hother ⟨Except.ok.inj (hcompare.symm.trans heq), hrest⟩
      · rw [alreadyProvided, hget]
        simp only [validateComponentProgression, bind, Except.bind, hversions, if_neg ho, if_neg hother]
        rfl
      · rw [Bool.and_eq_true, decide_eq_true_iff]
        refine ⟨fun h => ⟨installed, hget, h.1 ▸ hcompare, h.2⟩, ?_⟩
        rintro ⟨installed', hinstalled, heq, hblank⟩
        obtain rfl := hof installed' hinstalled
        exact ⟨Except.ok.inj (hcompare.symm.trans heq), hblank⟩

/-- What a turn of the loop makes of an entry. -/
theorem reconcile_of_valid (hvalid : ValidEntry sha256 uris m e item) (hwrite : ∀ path, e.canWrite path = true) (verified : VerifiedComponents) :
    (SameVersionOtherFile m item ∧
        ∃ ex, reconcileComponent sha256 uris m e (installedVersions m) verified (named item) = .error ex) ∨
      ¬SameVersionOtherFile m item ∧
        (HeldByPackage m item ∧ reconcileComponent sha256 uris m e (installedVersions m) verified (named item) = .ok verified ∨
          ¬HeldByPackage m item ∧ ∃ component, component.version = item.2.version ∧
            reconcileComponent sha256 uris m e (installedVersions m) verified (named item) =
              .ok (Dict.set verified (upperName item.1) component)) := by
  have hcheck : reconcileComponent sha256 uris m e (installedVersions m) verified (named item) =
      (alreadyProvided (installedVersions m) item.1 { item.2 with sha256 := trim item.2.sha256 }).bind fun provided =>
        if provided then pure verified
        else
          (ensureCachedComponent sha256 uris m e item.1 { item.2 with sha256 := trim item.2.sha256 }).bind
            fun component => pure (Dict.set verified (upperName item.1) component) := by
    rw [reconcileComponent, named, hvalid.valid]
    simp only [bind, Except.bind, hvalid.compatible]
  rw [hcheck]
  rcases alreadyProvided_of_valid hvalid with ⟨hother, ex, hex⟩ | ⟨hother, provided, hprovided, hheld⟩
  · rw [hex]
    exact .inl ⟨hother, ex, rfl⟩
  · rw [hprovided]
    refine .inr ⟨hother, ?_⟩
    cases provided with
    | true => exact .inl ⟨hheld.1 rfl, rfl⟩
    | false =>
      obtain ⟨component, hcomponent, hversion⟩ := ensureCached_of_valid hvalid hwrite
      refine .inr ⟨fun h => (by cases hheld.2 h), component, hversion, ?_⟩
      simp only [Except.bind, hcomponent]
      rfl

/-! ### The loop -/

/-- The hooks that were found are those of an entry that is not held by the package, or were there. -/
structure FoundHooks (m : Installation) (items : List (Text × ClientComponentDefinition)) (before after : VerifiedComponents) : Prop where
  from_entry : ∀ component, Dict.get after (upperName hooksComponentName) = some component →
    Dict.get before (upperName hooksComponentName) = some component ∨
      ∃ item ∈ items, isHooks item ∧ ¬HeldByPackage m item ∧ component.version = item.2.version
  kept : (Dict.get before (upperName hooksComponentName)).isSome → (Dict.get after (upperName hooksComponentName)).isSome
  entry : ∀ item ∈ items, isHooks item → ¬HeldByPackage m item → (Dict.get after (upperName hooksComponentName)).isSome

/-- The loop ends with an exception at a version that is recorded with another file, and else with the hooks that it found. -/
theorem loop_of_valid {items : List (Text × ClientComponentDefinition)} (hvalid : ∀ item ∈ items, ValidEntry sha256 uris m e item)
    (hwrite : ∀ path, e.canWrite path = true) (before : VerifiedComponents) :
    ((∃ item ∈ items, SameVersionOtherFile m item) ∧
        ∃ ex, (items.map named).foldlM (reconcileComponent sha256 uris m e (installedVersions m)) before = .error ex) ∨
      (∀ item ∈ items, ¬SameVersionOtherFile m item) ∧
        ∃ after, (items.map named).foldlM (reconcileComponent sha256 uris m e (installedVersions m)) before = .ok after ∧
          FoundHooks m items before after := by
  induction items generalizing before with
  | nil => exact .inr ⟨fun _ h => (nomatch h), before, rfl, fun _ h => .inl h, id, fun _ h => (nomatch h)⟩
  | cons item items ih =>
    rw [List.map_cons, List.foldlM_cons]
    obtain ⟨hitem, hitems⟩ := List.forall_mem_cons.1 hvalid
    rcases reconcile_of_valid hitem hwrite before with ⟨hother, ex, hex⟩ | ⟨hother, ⟨hheld, hnext⟩ | ⟨hheld, component, hversion, hnext⟩⟩
    · rw [hex]
      exact .inl ⟨⟨item, List.mem_cons_self, hother⟩, ex, rfl⟩
    · rw [hnext]
      rcases ih hitems before with ⟨⟨item', hmem, hother'⟩, hex⟩ | ⟨hothers, after, hafter, hfound⟩
      · exact .inl ⟨⟨item', List.mem_cons_of_mem _ hmem, hother'⟩, hex⟩
      · refine .inr ⟨List.forall_mem_cons.2 ⟨hother, hothers⟩, after, hafter, ?_, hfound.kept, ?_⟩
        · intro c hc
          refine (hfound.from_entry c hc).imp_right ?_
          rintro ⟨item', hmem, h⟩
          exact ⟨item', List.mem_cons_of_mem _ hmem, h⟩
        · exact List.forall_mem_cons.2 ⟨fun _ h => absurd hheld h, hfound.entry⟩
    · rw [hnext]
      rcases ih hitems (Dict.set before (upperName item.1) component) with ⟨⟨item', hmem, hother'⟩, hex⟩ | ⟨hothers, after, hafter, hfound⟩
      · exact .inl ⟨⟨item', List.mem_cons_of_mem _ hmem, hother'⟩, hex⟩
      · refine .inr ⟨List.forall_mem_cons.2 ⟨hother, hothers⟩, after, hafter, ?_, ?_, ?_⟩
        · intro c hc
          rcases hfound.from_entry c hc with hset | ⟨item', hmem, h⟩
          · by_cases hhooks : upperName hooksComponentName = upperName item.1
            · rw [hhooks, Dict.get_set_self] at hset
              obtain rfl := Option.some.inj hset
              exact .inr ⟨item, List.mem_cons_self, beq_iff_eq.2 hhooks.symm, hheld, hversion⟩
            · rw [Dict.get_set_other _ _ hhooks] at hset
              exact .inl hset
          · exact .inr ⟨item', List.mem_cons_of_mem _ hmem, h⟩
        · intro hbefore
          refine hfound.kept ?_
          by_cases hhooks : upperName hooksComponentName = upperName item.1
          · rw [hhooks, Dict.get_set_self]
            rfl
          · rwa [Dict.get_set_other _ _ hhooks]
        · refine List.forall_mem_cons.2 ⟨fun hhooks _ => hfound.kept ?_, hfound.entry⟩
          have hkey : upperName hooksComponentName = upperName item.1 := (beq_iff_eq.1 hhooks).symm
          rw [hkey, Dict.get_set_self]
          rfl

/-- The entries are gone through in some order. -/
theorem orderByName_named (components : List (Text × ClientComponentDefinition)) :
    ∃ items : List (Text × ClientComponentDefinition), orderByName (components.map named) = items.map named ∧
      ∀ item, item ∈ items ↔ item ∈ components := by
  have hperm : (orderByName (components.map named)).Perm (components.map named) := List.perm_insertionSort _ _
  refine ⟨(orderByName (components.map named)).map fun item => (item.1, item.2.getD {}), ?_, fun item => ?_⟩
  · rw [List.map_map]
    refine ((List.map_congr_left fun item hmem => ?_).trans (List.map_id _)).symm
    obtain ⟨item, -, rfl⟩ := List.mem_map.1 (hperm.mem_iff.1 hmem)
    rfl
  · rw [(hperm.map _).mem_iff, List.map_map]
    exact iff_of_eq (congrArg (item ∈ ·) (List.map_id components))

/-- How the hooks are resolved on the test channel. -/
theorem resolve_of_valid {components : List (Text × ClientComponentDefinition)} (hchannel : m.channel = .test)
    (hserves : ServesValid sha256 uris m e components) :
    ((∃ item ∈ components, SameVersionOtherFile m item) ∧ ∃ ex, resolveHooksForSelectedChannel sha256 uris m e = .error (.invalidOperation ex)) ∨
      (∀ item ∈ components, ¬SameVersionOtherFile m item) ∧ ∃ found, FoundHooks m components [] found ∧
        resolveHooksForSelectedChannel sha256 uris m e =
          match Dict.get found (upperName hooksComponentName) with
          | some hooks => .ok (some hooks)
          | none => .error hooksMissing := by
  obtain ⟨manifest, hserved, hschema, hname, hcomponents⟩ := hserves.served
  have hparse : parseAndValidateManifest e.served m.channel.name = .ok (components.map named) := by
    rw [parseAndValidateManifest, hserved]
    simp only [bind, Except.bind, Option.elim_some, hschema, hname, hcomponents]
    rfl
  obtain ⟨items, horder, hmem⟩ := orderByName_named components
  have hcheck : checkComponents sha256 uris m e =
      (items.map named).foldlM (reconcileComponent sha256 uris m e (installedVersions m)) [] := by
    rw [checkComponents, hparse]
    simp only [bind, Except.bind, horder, hserves.canWrite]
    cases (items.map named).foldlM (reconcileComponent sha256 uris m e (installedVersions m)) [] with
    | error ex => rfl
    | ok after => rfl
  rcases loop_of_valid (fun item h => hserves.entries item ((hmem item).1 h)) hserves.canWrite [] with
    ⟨⟨item, hitem, hother⟩, ex, hex⟩ | ⟨hothers, found, hfound, hfoundHooks⟩
  · refine .inl ⟨⟨item, (hmem item).1 hitem, hother⟩, ex, ?_⟩
    rw [resolveHooksForSelectedChannel, reconcileSelectedChannel, hcheck, hex, hchannel]
    rfl
  · refine .inr ⟨fun item h => hothers item ((hmem item).2 h), found, ?_, ?_⟩
    · refine ⟨fun component h => ?_, hfoundHooks.kept, fun item h => hfoundHooks.entry item ((hmem item).2 h)⟩
      refine (hfoundHooks.from_entry component h).imp_right ?_
      rintro ⟨item, hitem, h⟩
      exact ⟨item, (hmem item).1 hitem, h⟩
    · rw [resolveHooksForSelectedChannel, reconcileSelectedChannel, hcheck, hfound]
      simp only [bind, Except.bind, hchannel]
      cases Dict.get found (upperName hooksComponentName) with
      | some hooks => rfl
      | none => rfl

end ChannelHooksAux

open ChannelHooksAux

/-- Of a valid manifest of the test channel the hooks are resolved exactly when no version is recorded with another file and some hooks that
are offered are not held by the package; and the hooks are reported as missing exactly when the first holds and the second does not. -/
theorem hooks_resolved_iff (sha256 : Bytes → Text) (uris : Uris) (m : Installation) (e : Surroundings)
    (components : List (Text × ClientComponentDefinition)) (hchannel : m.channel = .test) (hserves : ServesValid sha256 uris m e components) :
    (ResolvesHooks sha256 uris m e components ↔
        (∀ item ∈ components, ¬SameVersionOtherFile m item) ∧ ∃ item ∈ components, isHooks item ∧ ¬HeldByPackage m item) ∧
      (resolveHooksForSelectedChannel sha256 uris m e = .error hooksMissing ↔
        (∀ item ∈ components, ¬SameVersionOtherFile m item) ∧ ∀ item ∈ components, isHooks item → HeldByPackage m item) := by
  rcases resolve_of_valid hchannel hserves with ⟨⟨item, hmem, hother⟩, ex, hex⟩ | ⟨hothers, found, hfound, hresolve⟩
  · refine ⟨iff_of_false ?_ fun h => h.1 item hmem hother, iff_of_false ?_ fun h => h.1 item hmem hother⟩
    · rintro ⟨_, _, _, component, hcomponent, _⟩
      nomatch hex.symm.trans hcomponent
    · intro hmissing
      nomatch hex.symm.trans hmissing
  · cases hget : Dict.get found (upperName hooksComponentName) with
    | some hooks =>
      rw [hget] at hresolve
      obtain ⟨item, hmem, hhooks, hheld, hversion⟩ := (hfound.from_entry hooks hget).resolve_left nofun
      refine ⟨iff_of_true ⟨item, hmem, hhooks, hooks, hresolve, hversion⟩ ⟨hothers, item, hmem, hhooks, hheld⟩,
        iff_of_false ?_ fun h => hheld (h.2 item hmem hhooks)⟩
      intro hmissing
      nomatch hresolve.symm.trans hmissing
    | none =>
      rw [hget] at hresolve
      have hall : ∀ item ∈ components, isHooks item → HeldByPackage m item := by
        intro item hmem hhooks
        by_contra hheld
        have hsome := hfound.entry item hmem hhooks hheld
        rw [hget] at hsome
        nomatch hsome
      refine ⟨iff_of_false ?_ fun ⟨_, item, hmem, hhooks, hheld⟩ => hheld (hall item hmem hhooks), iff_of_true hresolve ⟨hothers, hall⟩⟩
      rintro ⟨_, _, _, component, hcomponent, _⟩
      nomatch hresolve.symm.trans hcomponent

/-! ## A launcher with the hooks in version 2.0.0 -/

def onTest : Installation := { installedWith none with channel := .test }

def hooksSpec : ComponentSpec := { fileName := "uplay_r1_loader.dll".toList, updateMode := "before-game-start".toList }

/-- A server that offers the hooks in a version. -/
def hooksServer (version : Text) : Surroundings := PackagedAux.offering digestOfOne .test (hooksComponentName, hooksSpec) version

/-- The entry of these hooks. -/
def hooksEntry (version : Text) : Text × ClientComponentDefinition := (hooksComponentName, PackagedAux.offered digestOfOne hooksSpec version)

theorem servesValid_hooksServer {version : Text} (hblank : isBlank version = false)
    (hversion : ∃ o, compareComponentVersions "2.0.0".toList version = .ok o ∧ o ≠ .gt) :
    ServesValid digestOfOne besideBase onTest (hooksServer version) [hooksEntry version] where
  served := ⟨_, rfl, rfl, equalsIgnoreCase_self _, rfl⟩
  entries := by
    intro item hitem
    obtain rfl := List.mem_singleton.1 hitem
    have hrelative : besideBase.relative PackagedAux.manifestUriAt hooksSpec.fileName =
        some { PackagedAux.manifestUriAt with absolutePath := PackagedAux.channelDirectory ++ '/' :: hooksSpec.fileName } :=
      besideBase_relative _ _ rfl _
    have hsupported : (hooksComponentName, hooksSpec) ∈ supportedComponents := List.mem_cons_self
    refine ⟨PackagedAux.validate_offered ⟨rfl, rfl⟩ hrelative hsupported hblank, rfl, ?_, ?_⟩
    · intro installed hinstalled
      have hpackaged : installedComponent onTest hooksComponentName = some ("2.0.0".toList, []) := by decide +kernel
      obtain rfl := Option.some.inj (hinstalled.symm.trans hpackaged)
      exact hversion
    · exact ⟨_, [], PackagedAux.resolve_offered hrelative hsupported, rfl, fun h => absurd h (lt_irrefl _), rfl⟩
  canWrite _ := rfl

/-- Newer hooks than those of the package are resolved. -/
theorem hooks_resolved_newer : ResolvesHooks digestOfOne besideBase onTest (hooksServer "2.1.0".toList) [hooksEntry "2.1.0".toList] := by
  have hcompare : compareComponentVersions "2.0.0".toList "2.1.0".toList = .ok .lt := by decide +kernel
  have hpackaged : installedComponent onTest hooksComponentName = some ("2.0.0".toList, []) := by decide +kernel
  refine (hooks_resolved_iff digestOfOne besideBase onTest (hooksServer "2.1.0".toList) [hooksEntry "2.1.0".toList] rfl
    (servesValid_hooksServer rfl ⟨.lt, hcompare, nofun⟩)).1.2 ⟨fun item hitem => ?_, _, List.mem_singleton_self _, rfl, ?_⟩
  · obtain rfl := List.mem_singleton.1 hitem
    rintro ⟨installed, hinstalled, heq, -⟩
    obtain rfl := Option.some.inj (hinstalled.symm.trans hpackaged)
    nomatch hcompare.symm.trans heq
  · rintro ⟨installed, hinstalled, heq, -⟩
    obtain rfl := Option.some.inj (hinstalled.symm.trans hpackaged)
    nomatch hcompare.symm.trans heq

/-- The hooks of the package are reported as missing. -/
theorem hooks_resolved_false :
    ¬∀ (sha256 : Bytes → Text) (uris : Uris) (m : Installation) (e : Surroundings) (components : List (Text × ClientComponentDefinition)),
        m.channel = .test → ServesValid sha256 uris m e components → (∃ item ∈ components, isHooks item) →
        ResolvesHooks sha256 uris m e components ∧ resolveHooksForSelectedChannel sha256 uris m e ≠ .error hooksMissing := by
  intro h
  have hmissing : resolveHooksForSelectedChannel digestOfOne besideBase onTest (hooksServer "2.0.0".toList) = .error hooksMissing := by
    decide +kernel
  exact (h digestOfOne besideBase onTest (hooksServer "2.0.0".toList) [hooksEntry "2.0.0".toList] rfl
    (servesValid_hooksServer rfl ⟨.eq, by decide +kernel, nofun⟩) ⟨_, List.mem_singleton_self _, rfl⟩).2 hmissing

end Scbl.Launcher
