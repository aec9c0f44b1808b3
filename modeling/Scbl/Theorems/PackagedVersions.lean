import Scbl.Launcher.StagedComponents
import Scbl.Lib.Panic
import Scbl.Theorems.Versions

/-!
# Not below the package

A start applies the staged components that the state records, and the update check takes a component that is no older than the one that
is recorded. Neither looks at the package where the state records something: after an upgrade of the launcher the record of an older
version counts, and an older version comes into effect. Nothing older does exactly when no record is older than the package.
-/

namespace Scbl.Launcher

open Scbl.Lib
open ClientComponentUpdateService StagedComponentBootstrapService
open TransactionalComponentInstaller (isHexDigit)

/-- The launcher itself compares a version as older. -/
def Older (version packaged : Text) : Prop := compareComponentVersions version packaged = .ok .lt

/-- The version that is packaged with the launcher. -/
def packagedVersion (m : Installation) (name : Text) : Option Text :=
  (Dict.get (readPackagedComponentVersions m.packageManifest) (upperName name)).map (·.1)

/-- The version that the state records of a component, as the update check reads it. -/
def recordedVersion (m : Installation) (name : Text) : Option Text :=
  (Dict.get (addRecorded [] (recordedComponents m.channel.name m.componentState)) (upperName name)).map (·.1)

section

variable (sha256 : Bytes → Text) (uris : Uris) (zip : ZipReader) (m : Installation)

/-- The components that come into effect: those that the start applies, and those that the check takes for the launch or the next one. -/
def inEffect (start : StartSurroundings) (e : Surroundings) : List (Text × Text) :=
  (applyUpdaterAndEasyTier sha256 zip m start ++ applyRouteGuard sha256 zip m start).map
      (fun applied => (applied.component, applied.version.getD [])) ++
    match reconcileSelectedChannel sha256 uris m e with
    | .ok verified => verified.map (fun item => (item.2.name, item.2.version))
    | .error _ => []

/-- Whatever the surroundings are, no component that comes into effect is older than the packaged one. -/
def NeverBelowPackaged : Prop :=
  ∀ start e, ∀ item ∈ inEffect sha256 uris zip m start e, ∀ packaged, packagedVersion m item.1 = some packaged → ¬Older item.2 packaged

/-- The cached file of an entry has the recorded digest, and holds the files that are expected of the component. -/
def Appliable (component : Text) (entry : ComponentStateEntry) : Prop :=
  ∃ content, verifyCachedComponent sha256 m entry = some content ∧
    (component = "updater".toList ∨ component = "easytier".toList ∧ isBundle zip easyTierFiles content = true ∨
      component = "route-guard".toList ∧ isBundle zip routeGuardFiles content = true)

/-- The state has an entry that can be applied; EasyTier comes after the updater. -/
def Staged (component : Text) (entry : ComponentStateEntry) : Prop :=
  ∃ components, (loadSelectedChannelState m).bind (·.components) = some components ∧
    Dict.get components component = some (some entry) ∧ Appliable sha256 zip m component entry ∧
      (component = "easytier".toList → ∀ updater, Dict.get components "updater".toList = some updater →
        ∃ updaterEntry, updater = some updaterEntry ∧ Appliable sha256 zip m "updater".toList updaterEntry)

/-- Nothing that the state records is older than what is packaged. -/
structure RecordsUpToDate : Prop where
  recorded : ∀ name version packaged, recordedVersion m name = some version → packagedVersion m name = some packaged → ¬Older version packaged
  staged : ∀ component entry packaged, Staged sha256 zip m component entry → packagedVersion m component = some packaged →
    ¬Older (entry.version.getD []) packaged

end

namespace PackagedAux

open VersionAux

/-! ### The order of versions -/

/-- The first numbers decide, and else the others; there may be none. -/
theorem compareNumbers_head_tail (left right : List Nat) :
    compareNumbers left right = (compare (left.getD 0 0) (right.getD 0 0)).then (compareNumbers left.tail right.tail) := by
  by_cases h : left = [] ∧ right = []
  · obtain ⟨rfl, rfl⟩ := h
    rfl
  · exact compareNumbers_step h

theorem compareNumbers_self (numbers : List Nat) : compareNumbers numbers numbers = .eq := by
  induction numbers with
  | nil => rfl
  | cons a numbers ih => rw [compareNumbers_cons, compare_eq_iff_eq.2 rfl, ih]; rfl

/-- What is not after an earlier version is earlier too. -/
theorem compareNumbers_lt_of_lt {left middle right : List Nat} (h : compareNumbers left middle ≠ .gt)
    (hlt : compareNumbers middle right = .lt) : compareNumbers left right = .lt := by
  obtain ⟨n, hn⟩ : ∃ n, left.length + middle.length + right.length = n := ⟨_, rfl⟩
  induction n using Nat.strong_induction_on generalizing left middle right with
  | h n ih =>
    by_cases hall : middle = [] ∧ right = []
    · obtain ⟨rfl, rfl⟩ := hall
      nomatch hlt
    · have hshort : left.tail.length + middle.tail.length + right.tail.length < n := by
        have hpos : 0 < middle.length ∨ 0 < right.length := by
          simp only [List.length_pos_iff]
          tauto
        simp only [List.length_tail]
        omega
      have htails : compareNumbers left.tail middle.tail ≠ .gt → compareNumbers middle.tail right.tail = .lt →
          compareNumbers left.tail right.tail = .lt := fun h hlt => ih _ hshort h hlt rfl
      rw [compareNumbers_head_tail] at h hlt ⊢
      rcases lt_trichotomy (left.getD 0 0) (middle.getD 0 0) with hhead | hhead | hhead
      · have hle : middle.getD 0 0 ≤ right.getD 0 0 := by
          by_contra hgt
          rw [compare_gt_iff_gt.2 (not_le.1 hgt)] at hlt
          nomatch hlt
        rw [compare_lt_iff_lt.2 (hhead.trans_le hle)]
        rfl
      · rw [hhead] at h ⊢
        rw [compare_eq_iff_eq.2 rfl] at h
        cases hcmp : compare (middle.getD 0 0) (right.getD 0 0) with
        | lt => rfl
        | eq =>
          rw [hcmp] at hlt
          exact htails h hlt
        | gt =>
          rw [hcmp] at hlt
          nomatch hlt
      · rw [compare_gt_iff_gt.2 hhead] at h
        exact absurd rfl h

/-- The versions that compare, and how. -/
theorem compareComponentVersions_ok_iff {current candidate : Text} {o : Ordering} :
    compareComponentVersions current candidate = .ok o ↔
      numbersOf current ≠ [] ∧ numbersOf candidate ≠ [] ∧ (∀ n ∈ numbersOf current ++ numbersOf candidate, n < 2 ^ 31) ∧
        compareNumbers (numbersOf current) (numbersOf candidate) = o := by
  by_cases hnumbered : numbersOf current ≠ [] ∧ numbersOf candidate ≠ []
  · rw [compareComponentVersions_eq hnumbered.1 hnumbered.2]
    split
    · rename_i hfits
      exact ⟨fun h => ⟨hnumbered.1, hnumbered.2, hfits, Except.ok.inj h⟩, fun h => by rw [h.2.2.2]⟩
    · rename_i hfits
      exact iff_of_false (fun h => by cases h) fun h => hfits h.2.2.1
  · refine iff_of_false (fun h => ?_) fun h => hnumbered ⟨h.1, h.2.1⟩
    have hempty : (numbersOf current).length = 0 ∨ (numbersOf candidate).length = 0 := by
      simp only [List.length_eq_zero_iff]
      tauto
    rw [compareComponentVersions, mapM_parseInt, mapM_parseInt, ← numbersOf, ← numbersOf] at h
    by_cases hleft : ∀ n ∈ numbersOf current, n < 2 ^ 31
    · by_cases hright : ∀ n ∈ numbersOf candidate, n < 2 ^ 31
      · rw [if_pos hleft, if_pos hright] at h
        simp only [bind, Except.bind, if_pos hempty] at h
        cases h
      · rw [if_pos hleft, if_neg hright] at h
        cases h
    · rw [if_neg hleft] at h
      cases h

/-- A version that is not before a record is older than the package only where the record is. -/
theorem older_of_compare {recorded candidate packaged : Text} {o : Ordering} (h : compareComponentVersions recorded candidate = .ok o)
    (ho : o ≠ .gt) (holder : Older candidate packaged) : Older recorded packaged := by
  obtain ⟨hrecorded, -, hfits, rfl⟩ := compareComponentVersions_ok_iff.1 h
  obtain ⟨-, hpackaged, hfits', hlt⟩ := compareComponentVersions_ok_iff.1 holder
  rw [List.forall_mem_append] at hfits hfits'
  exact compareComponentVersions_ok_iff.2
    ⟨hrecorded, hpackaged, List.forall_mem_append.2 ⟨hfits.1, hfits'.2⟩, compareNumbers_lt_of_lt ho hlt⟩

theorem not_older_self (version : Text) : ¬Older version version := by
  intro h
  have hlt := (compareComponentVersions_ok_iff.1 h).2.2.2
  rw [compareNumbers_self] at hlt
  nomatch hlt

/-! ### The update check -/

theorem get_addRecorded (result : Versions) (members : Json.Object) (key : Text) :
    Dict.get (addRecorded result members) key = (Dict.get (addRecorded [] members) key).or (Dict.get result key) := by
  induction members generalizing result with
  | nil => rfl
  | cons member members ih =>
    obtain ⟨name, value⟩ := member
    rw [addRecorded, addRecorded]
    cases readRecorded value with
    | none => rfl
    | some entry =>
      cases entry with
      | none => exact ih result
      | some entry =>
        dsimp only
        rw [ih (Dict.set result (upperName name) entry), ih (Dict.set [] (upperName name) entry), Option.or_assoc]
        congr 1
        by_cases hkey : key = upperName name
        · rw [hkey, Dict.get_set_self, Dict.get_set_self, Option.some_or]
        · rw [Dict.get_set_other _ _ hkey, Dict.get_set_other _ _ hkey, Dict.get_nil, Option.none_or]

/-- A record counts before the package. -/
theorem installedVersion_eq (m : Installation) (name : Text) :
    (Dict.get (readInstalledComponentVersions m.channel.name m.packageManifest m.componentState) (upperName name)).map (·.1) =
      (recordedVersion m name).or (packagedVersion m name) := by
  rw [readInstalledComponentVersions, get_addRecorded, Option.map_or, recordedVersion, packagedVersion]

theorem compare_of_progression {name current currentSha candidate candidateSha : Text}
    (h : validateComponentProgression name current currentSha candidate candidateSha = .ok ()) :
    ∃ o, compareComponentVersions current candidate = .ok o ∧ o ≠ .gt := by
  obtain ⟨o, hcompare, h⟩ := bind_eq_ok.1 h
  refine ⟨o, ok_of_mapError hcompare, fun hgt => ?_⟩
  rw [if_pos hgt] at h
  nomatch h

/-- What is not refused is no older than what is taken for installed. -/
theorem compare_of_alreadyProvided {installed : Versions} {name : Text} {definition : ClientComponentDefinition} {provided : Bool}
    {current : Text × Text} (h : alreadyProvided installed name definition = .ok provided)
    (hinstalled : Dict.get installed (upperName name) = some current) :
    ∃ o, compareComponentVersions current.1 definition.version = .ok o ∧ o ≠ .gt := by
  rw [alreadyProvided, hinstalled] at h
  obtain ⟨⟨⟩, hprogression, -⟩ := bind_eq_ok.1 h
  exact compare_of_progression hprogression

/-- What is not refused is no older than what is packaged, unless a record is. -/
theorem not_older_of_alreadyProvided {m : Installation} {name packaged : Text} {definition : ClientComponentDefinition} {provided : Bool}
    (h : alreadyProvided (readInstalledComponentVersions m.channel.name m.packageManifest m.componentState) name definition = .ok provided)
    (hrecorded : ∀ version, recordedVersion m name = some version → ¬Older version packaged)
    (hpackaged : packagedVersion m name = some packaged) : ¬Older definition.version packaged := by
  intro holder
  have hversion := installedVersion_eq m name
  cases hget : Dict.get (readInstalledComponentVersions m.channel.name m.packageManifest m.componentState) (upperName name) with
  | none =>
    rw [hget, hpackaged, Option.map_none] at hversion
    cases hnone : recordedVersion m name with
    | none => rw [hnone] at hversion; nomatch hversion
    | some version => rw [hnone] at hversion; nomatch hversion
  | some current =>
    rw [hget, hpackaged, Option.map_some] at hversion
    obtain ⟨o, hcompare, ho⟩ := compare_of_alreadyProvided h hget
    have hcurrent := older_of_compare hcompare ho holder
    cases hrec : recordedVersion m name with
    | none =>
      rw [hrec, Option.none_or] at hversion
      rw [Option.some.inj hversion] at hcurrent
      exact not_older_self packaged hcurrent
    | some version =>
      rw [hrec, Option.some_or] at hversion
      rw [Option.some.inj hversion] at hcurrent
      exact hrecorded version hrec hcurrent

section

variable {sha256 : Bytes → Text} {uris : Uris} {zip : ZipReader} {m : Installation} {start : StartSurroundings} {e : Surroundings}

theorem ensureCached_keeps {name : Text} {definition : ClientComponentDefinition} {component : VerifiedClientComponent}
    (h : ensureCachedComponent sha256 uris m e name definition = .ok component) :
    component.name = name ∧ component.version = definition.version := by
  obtain ⟨spec, -, h⟩ := bind_eq_ok.1 h
  obtain ⟨source, -, h⟩ := bind_eq_ok.1 h
  dsimp only at h
  split at h
  · obtain rfl := Except.ok.inj h
    exact ⟨rfl, rfl⟩
  · obtain ⟨payload, -, h⟩ := bind_eq_ok.1 h
    split at h
    · nomatch h
    · split at h
      · nomatch h
      · split at h
        · nomatch h
        · obtain rfl := Except.ok.inj h
          exact ⟨rfl, rfl⟩

/-- Every component was offered with its version and not refused. -/
def Accepted (installed : Versions) (verified : VerifiedComponents) : Prop :=
  ∀ item ∈ verified, ∃ definition provided, alreadyProvided installed item.2.name definition = .ok provided ∧
    item.2.version = definition.version

theorem accepted_reconcileComponent {installed : Versions} {verified verified' : VerifiedComponents}
    {item : Text × Option ClientComponentDefinition} (haccepted : Accepted installed verified)
    (h : reconcileComponent sha256 uris m e installed verified item = .ok verified') : Accepted installed verified' := by
  obtain ⟨definition, -, h⟩ := bind_eq_ok.1 h
  obtain ⟨⟨⟩, -, h⟩ := bind_eq_ok.1 h
  obtain ⟨provided, hprovided, h⟩ := bind_eq_ok.1 h
  split at h
  · obtain rfl := Except.ok.inj h
    exact haccepted
  · obtain ⟨component, hcomponent, h⟩ := bind_eq_ok.1 h
    obtain rfl := Except.ok.inj h
    obtain ⟨hname, hversion⟩ := ensureCached_keeps hcomponent
    intro item' hmem
    rcases Dict.mem_set hmem with rfl | hmem
    · exact ⟨definition, provided, by rw [hname]; exact hprovided, hversion⟩
    · exact haccepted item' hmem

theorem accepted_checkComponents {verified : VerifiedComponents} (h : checkComponents sha256 uris m e = .ok verified) :
    Accepted (readInstalledComponentVersions m.channel.name m.packageManifest m.componentState) verified := by
  obtain ⟨components, -, h⟩ := bind_eq_ok.1 h
  obtain ⟨verified', hfold, h⟩ := bind_eq_ok.1 h
  split at h
  · nomatch h
  obtain rfl := Except.ok.inj h
  exact foldlM_induction (fun _ _ _ haccepted hstep => accepted_reconcileComponent haccepted hstep) hfold fun _ hmem => nomatch hmem

/-! ### The start -/

theorem updater_ne_easyTier : "updater".toList ≠ "easytier".toList := by decide

theorem routeGuard_ne_easyTier : "route-guard".toList ≠ "easytier".toList := by decide

theorem staged_of_applySingleFile {component targetPath : Text} {entry : ComponentStateEntry} {applied : AppliedComponent}
    (h : applySingleFile sha256 m start component targetPath entry = some applied) :
    ∃ content, verifyCachedComponent sha256 m entry = some content ∧ applied = { component, version := entry.version, content } := by
  obtain ⟨content, hcontent, h⟩ := Option.bind_eq_some_iff.1 h
  split at h
  · exact ⟨content, hcontent, (Option.some.inj h).symm⟩
  · nomatch h

theorem staged_of_applyZipBundle {component : Text} {sourceNames : List Text} {entry : ComponentStateEntry} {applied : AppliedComponent}
    (h : applyZipBundle sha256 zip m start component sourceNames entry = some applied) :
    ∃ content, verifyCachedComponent sha256 m entry = some content ∧ isBundle zip sourceNames content = true ∧
      applied = { component, version := entry.version, content } := by
  obtain ⟨content, hcontent, h⟩ := Option.bind_eq_some_iff.1 h
  split at h
  · rename_i hboth
    exact ⟨content, hcontent, (Bool.and_eq_true_iff.1 hboth).1, (Option.some.inj h).symm⟩
  · nomatch h

theorem applyEntry_eq_some {components : List (Text × Option ComponentStateEntry)} {component : Text}
    {apply : ComponentStateEntry → Option AppliedComponent} {all : List AppliedComponent} (h : applyEntry components component apply = some all) :
    (Dict.get components component = none ∧ all = []) ∨
      ∃ entry applied, Dict.get components component = some (some entry) ∧ apply entry = some applied ∧ all = [applied] := by
  rw [applyEntry] at h
  split at h
  · rename_i hnone
    exact .inl ⟨hnone, (Option.some.inj h).symm⟩
  · rename_i entry hentry
    obtain ⟨applied, happlied, rfl⟩ := Option.map_eq_some_iff.1 h
    obtain ⟨entry, rfl, happly⟩ := Option.bind_eq_some_iff.1 happlied
    exact .inr ⟨entry, applied, hentry, happly, rfl⟩

/-- What the start applies before the network is started was staged. -/
theorem staged_of_updaterAndEasyTier {applied : AppliedComponent} (h : applied ∈ applyUpdaterAndEasyTier sha256 zip m start) :
    ∃ entry, Staged sha256 zip m applied.component entry ∧ applied.version = entry.version := by
  rw [applyUpdaterAndEasyTier] at h
  split at h
  · nomatch h
  rename_i components hcomponents
  split at h
  · nomatch h
  rename_i updater hupdater
  have hstagedUpdater := applyEntry_eq_some hupdater
  rcases List.mem_append.1 h with h | h
  · rcases hstagedUpdater with ⟨-, rfl⟩ | ⟨entry, updaterApplied, hentry, happly, rfl⟩
    · nomatch h
    · obtain rfl := List.mem_singleton.1 h
      obtain ⟨content, hcontent, rfl⟩ := staged_of_applySingleFile happly
      exact ⟨entry, ⟨components, hcomponents, hentry, ⟨content, hcontent, .inl rfl⟩, fun heq => absurd heq updater_ne_easyTier⟩, rfl⟩
  · split at h
    · nomatch h
    cases heasyTier : applyEntry components "easytier".toList (applyZipBundle sha256 zip m start "easytier".toList easyTierFiles) with
    | none =>
      rw [heasyTier] at h
      nomatch h
    | some all =>
      rw [heasyTier] at h
      rcases applyEntry_eq_some heasyTier with ⟨-, rfl⟩ | ⟨entry, easyTierApplied, hentry, happly, rfl⟩
      · nomatch h
      · obtain rfl := List.mem_singleton.1 h
        obtain ⟨content, hcontent, hbundle, rfl⟩ := staged_of_applyZipBundle happly
        refine ⟨entry, ⟨components, hcomponents, hentry, ⟨content, hcontent, .inr (.inl ⟨rfl, hbundle⟩)⟩, fun _ found hfound => ?_⟩, rfl⟩
        rcases hstagedUpdater with ⟨hnone, -⟩ | ⟨updaterEntry, updaterApplied, hupdaterEntry, hupdaterApply, -⟩
        · rw [hnone] at hfound
          nomatch hfound
        · rw [hupdaterEntry] at hfound
          obtain ⟨updaterContent, hupdaterContent, -⟩ := staged_of_applySingleFile hupdaterApply
          exact ⟨updaterEntry, (Option.some.inj hfound).symm, updaterContent, hupdaterContent, .inl rfl⟩

/-- What the start applies to the Route Guard was staged. -/
theorem staged_of_routeGuard {applied : AppliedComponent} (h : applied ∈ applyRouteGuard sha256 zip m start) :
    ∃ entry, Staged sha256 zip m applied.component entry ∧ applied.version = entry.version := by
  rw [applyRouteGuard] at h
  split at h
  · nomatch h
  rename_i components hcomponents
  split at h
  · nomatch h
  cases hguard : applyEntry components "route-guard".toList (applyZipBundle sha256 zip m start "route-guard".toList routeGuardFiles) with
  | none =>
    rw [hguard] at h
    nomatch h
  | some all =>
    rw [hguard] at h
    rcases applyEntry_eq_some hguard with ⟨-, rfl⟩ | ⟨entry, guardApplied, hentry, happly, rfl⟩
    · nomatch h
    · obtain rfl := List.mem_singleton.1 h
      obtain ⟨content, hcontent, hbundle, rfl⟩ := staged_of_applyZipBundle happly
      exact ⟨entry, ⟨components, hcomponents, hentry, ⟨content, hcontent, .inr (.inr ⟨rfl, hbundle⟩)⟩,
        fun heq => absurd heq routeGuard_ne_easyTier⟩, rfl⟩

/-- Nothing runs that keeps a component from being applied. -/
def unhindered : StartSurroundings := { baseDirectory := [], easyTierIsRunning := false, gameIsRunning := false, canReplace := fun _ => true }

theorem applyEntry_of_get {components : List (Text × Option ComponentStateEntry)} {component : Text} {entry : ComponentStateEntry}
    {apply : ComponentStateEntry → Option AppliedComponent} {applied : AppliedComponent}
    (h : Dict.get components component = some (some entry)) (happly : apply entry = some applied) :
    applyEntry components component apply = some [applied] := by
  rw [applyEntry, h]
  exact Option.map_eq_some_iff.2 ⟨applied, happly, rfl⟩

theorem applySingleFile_unhindered {component targetPath : Text} {entry : ComponentStateEntry} {content : Bytes}
    (h : verifyCachedComponent sha256 m entry = some content) :
    applySingleFile sha256 m unhindered component targetPath entry = some { component, version := entry.version, content } := by
  rw [applySingleFile, h, Option.bind_some, if_pos (by simp [unhindered])]

theorem applyZipBundle_unhindered {component : Text} {sourceNames : List Text} {entry : ComponentStateEntry} {content : Bytes}
    (h : verifyCachedComponent sha256 m entry = some content) (hbundle : isBundle zip sourceNames content = true) :
    applyZipBundle sha256 zip m unhindered component sourceNames entry = some { component, version := entry.version, content } := by
  rw [applyZipBundle, h, Option.bind_some, if_pos (by rw [hbundle]; rfl)]

/-- What is staged is applied where nothing keeps it from it. -/
theorem applied_of_staged {component : Text} {entry : ComponentStateEntry} (h : Staged sha256 zip m component entry) :
    ∃ applied ∈ applyUpdaterAndEasyTier sha256 zip m unhindered ++ applyRouteGuard sha256 zip m unhindered,
      applied.component = component ∧ applied.version = entry.version := by
  obtain ⟨components, hcomponents, hentry, ⟨content, hcontent, hkind⟩, hafter⟩ := h
  rcases hkind with rfl | ⟨rfl, hbundle⟩ | ⟨rfl, hbundle⟩
  · refine ⟨{ component := "updater".toList, version := entry.version, content }, List.mem_append_left _ ?_, rfl, rfl⟩
    rw [applyUpdaterAndEasyTier, hcomponents]
    dsimp only
    rw [applyEntry_of_get hentry (applySingleFile_unhindered hcontent)]
    exact List.mem_append_left _ (List.mem_singleton_self _)
  · have hupdater : ∃ all, applyEntry components "updater".toList (applySingleFile sha256 m unhindered "updater".toList
        (updaterPath unhindered)) = some all := by
      cases hget : Dict.get components "updater".toList with
      | none => exact ⟨[], by rw [applyEntry, hget]⟩
      | some updater =>
        obtain ⟨updaterEntry, rfl, updaterContent, hupdaterContent, -⟩ := hafter rfl updater hget
        exact ⟨_, applyEntry_of_get hget (applySingleFile_unhindered hupdaterContent)⟩
    obtain ⟨all, hall⟩ := hupdater
    refine ⟨{ component := "easytier".toList, version := entry.version, content }, List.mem_append_left _ ?_, rfl, rfl⟩
    rw [applyUpdaterAndEasyTier, hcomponents]
    dsimp only
    rw [hall, applyEntry_of_get hentry (applyZipBundle_unhindered hcontent hbundle)]
    exact List.mem_append_right _ (List.mem_singleton_self _)
  · refine ⟨{ component := "route-guard".toList, version := entry.version, content }, List.mem_append_right _ ?_, rfl, rfl⟩
    rw [applyRouteGuard, hcomponents]
    dsimp only
    rw [applyEntry_of_get hentry (applyZipBundle_unhindered hcontent hbundle)]
    exact List.mem_singleton_self _

/-- With records that are up to date, whatever comes into effect is not older than the package. -/
theorem neverBelow_of_upToDate (h : RecordsUpToDate sha256 zip m) : NeverBelowPackaged sha256 uris zip m := by
  intro start e item hmem packaged hpackaged
  rcases List.mem_append.1 hmem with hmem | hmem
  · obtain ⟨applied, happlied, rfl⟩ := List.mem_map.1 hmem
    have hstaged : ∃ entry, Staged sha256 zip m applied.component entry ∧ applied.version = entry.version :=
      (List.mem_append.1 happlied).elim staged_of_updaterAndEasyTier staged_of_routeGuard
    obtain ⟨entry, hentry, hversion⟩ := hstaged
    dsimp only
    rw [hversion]
    exact h.staged _ entry packaged hentry hpackaged
  · rw [reconcileSelectedChannel] at hmem
    cases hcheck : checkComponents sha256 uris m e with
    | ok verified =>
      rw [hcheck] at hmem
      obtain ⟨verifiedItem, hverified, rfl⟩ := List.mem_map.1 hmem
      obtain ⟨definition, provided, hprovided, hversion⟩ := accepted_checkComponents hcheck verifiedItem hverified
      dsimp only
      rw [hversion]
      exact not_older_of_alreadyProvided hprovided (fun version hversion => h.recorded _ version packaged hversion hpackaged) hpackaged
    | error ex =>
      rw [hcheck] at hmem
      cases hchannel : m.channel with
      | test =>
        rw [hchannel] at hmem
        nomatch hmem
      | stable =>
        rw [hchannel] at hmem
        nomatch hmem

end

/-! ### A server with an older version -/

theorem isWhiteSpace_of_isHexDigit {c : Char} (h : isHexDigit c = true) : isWhiteSpace c = false := by
  have hranges : (48 ≤ c.toNat ∧ c.toNat ≤ 57) ∨ (97 ≤ c.toNat ∧ c.toNat ≤ 102) ∨ (65 ≤ c.toNat ∧ c.toNat ≤ 70) := by
    simp only [isHexDigit, Char.isDigit, Bool.or_eq_true, Bool.and_eq_true, decide_eq_true_eq, Char.le_def, ge_iff_le,
      UInt32.le_iff_toNat_le, or_assoc] at h
    exact h
  simp only [isWhiteSpace, decide_eq_false_iff_not]
  omega

/-- A digest is not blank. -/
theorem isBlank_of_isSha256 {hash : Text} (h : isSha256 hash = true) : isBlank hash = false := by
  have hhex : ∀ t : Text, (t.length = 64 && t.all isHexDigit) = true → ∃ c ∈ t, isWhiteSpace c = false := by
    intro t ht
    obtain ⟨hlen, hall⟩ := Bool.and_eq_true_iff.1 ht
    cases t with
    | nil => simp at hlen
    | cons c t => exact ⟨c, List.mem_cons_self, isWhiteSpace_of_isHexDigit (List.all_eq_true.1 hall c List.mem_cons_self)⟩
  have hchar : ∃ c ∈ hash, isWhiteSpace c = false := by
    rcases Bool.or_eq_true_iff.1 h with hall | hlast
    · exact hhex hash hall
    · obtain ⟨c, hc, hnot⟩ := hhex _ (Bool.and_eq_true_iff.1 hlast).2
      exact ⟨c, List.dropLast_subset _ hc, hnot⟩
  obtain ⟨c, hc, hnot⟩ := hchar
  exact List.all_eq_false.2 ⟨c, hc, by rw [hnot]; decide⟩

theorem isSha256_of_recorded {members : Json.Object} {result : Versions} {key : Text} {entry : Text × Text}
    (h : Dict.get (addRecorded result members) key = some entry) : isSha256 entry.2 = true ∨ Dict.get result key = some entry := by
  induction members generalizing result with
  | nil => exact .inr h
  | cons member members ih =>
    obtain ⟨name, value⟩ := member
    rw [addRecorded] at h
    split at h
    · exact .inr h
    · exact ih h
    · rename_i installed hrecorded
      rcases ih h with hhash | hget
      · exact .inl hhash
      · by_cases hkey : key = upperName name
        · rw [hkey, Dict.get_set_self] at hget
          obtain rfl := Option.some.inj hget
          obtain ⟨version, -, hread⟩ := Option.bind_eq_some_iff.1 hrecorded
          obtain ⟨hash, -, hread⟩ := Option.map_eq_some_iff.1 hread
          split at hread
          · rename_i hvalid
            obtain rfl := Option.some.inj hread
            exact .inl (Bool.and_eq_true_iff.1 hvalid).2
          · nomatch hread
        · rw [Dict.get_set_other _ _ hkey] at hget
          exact .inr hget

theorem supported_of_addPackaged {members : Json.Object} {result : Versions} {key : Text} {entry : Text × Text}
    (h : Dict.get (addPackaged result members) key = some entry) :
    (∃ item ∈ supportedComponents, upperName item.1 = key) ∨ Dict.get result key = some entry := by
  induction members generalizing result with
  | nil => exact .inr h
  | cons member members ih =>
    obtain ⟨name, value⟩ := member
    rw [addPackaged] at h
    split at h
    · exact ih h
    · rename_i hsupported
      split at h
      · exact .inr h
      · split at h
        · rcases ih h with hitem | hget
          · exact .inl hitem
          · by_cases hkey : key = upperName name
            · cases hfind : supportedComponents.find? (fun item => equalsIgnoreCase item.1 name) with
              | none =>
                rw [findSupported, hfind] at hsupported
                exact absurd rfl hsupported
              | some item =>
                have hequal := List.find?_some hfind
                exact .inl ⟨item, List.mem_of_find?_eq_some hfind, (beq_iff_eq.1 hequal).trans hkey.symm⟩
            · rw [Dict.get_set_other _ _ hkey] at hget
              exact .inr hget
        · exact ih h

/-- Only a supported component has a packaged version. -/
theorem supported_of_packaged {m : Installation} {name packaged : Text} (h : packagedVersion m name = some packaged) :
    ∃ item ∈ supportedComponents, upperName item.1 = upperName name := by
  obtain ⟨entry, hentry, -⟩ := Option.map_eq_some_iff.1 h
  rw [readPackagedComponentVersions] at hentry
  split at hentry
  · exact (supported_of_addPackaged hentry).resolve_right nofun
  · nomatch hentry

/-- A version that compares as the recorded one, and reads differently. -/
def respelled (version : Text) : Text := version ++ ".0".toList

theorem numbersOf_respelled (version : Text) : numbersOf (respelled version) = numbersOf version ++ [0] := by
  have hsplit : (version ++ '.' :: ['0']).splitOnP (fun c : Char => !c.isDigit) =
      version.splitOnP (fun c => !c.isDigit) ++ ['0'].splitOnP (fun c => !c.isDigit) := List.splitOnP_append_cons version ['0'] (by decide)
  rw [numbersOf, numbersOf, digitRuns, digitRuns, respelled]
  have hrest : ['0'].splitOnP (fun c : Char => !c.isDigit) = [['0']] := by decide
  have happend : version ++ ".0".toList = version ++ '.' :: ['0'] := rfl
  rw [happend, hsplit, hrest, List.filter_append, List.map_append]
  rfl

theorem compareNumbers_append_zero (numbers : List Nat) :
    compareNumbers numbers (numbers ++ [0]) = .eq ∧ compareNumbers (numbers ++ [0]) numbers = .eq := by
  induction numbers with
  | nil => exact ⟨by decide, by decide⟩
  | cons a numbers ih =>
    rw [List.cons_append, compareNumbers_cons, compareNumbers_cons, compare_eq_iff_eq.2 rfl, ih.1, ih.2]
    exact ⟨rfl, rfl⟩

/-- The directory of the manifest of a channel. -/
def channelDirectory : Text := "/components/channels/stable".toList

/-- Where the manifest of a channel is. -/
def manifestUriAt : SourceUri where
  scheme := "http".toList
  host := "10.66.0.1".toList
  port := 18080
  absolutePath := channelDirectory ++ "/client_components_v2.json".toList

/-- What the server offers of a component: an empty file in a version of its choice. -/
def offered (sha256 : Bytes → Text) (spec : ComponentSpec) (version : Text) : ClientComponentDefinition where
  version
  sha256 := sha256 []
  url := spec.fileName
  updateMode := spec.updateMode
  required := true

/-- The server offers one component. -/
def offering (sha256 : Bytes → Text) (channel : ClientUpdateChannel) (item : Text × ComponentSpec) (version : Text) : Surroundings where
  launcherVersion := []
  manifestUri := manifestUriAt
  served := .ok (some { schemaVersion := supportedSchemaVersion, channel := channel.name,
                        components := some [(item.1, some (offered sha256 item.2 version))] })
  download _ := some []
  canWrite _ := true

section

variable {sha256 : Bytes → Text} {uris : Uris} {m : Installation} {item : Text × ComponentSpec} {version : Text}

theorem resolve_offered (hrelative : uris.relative manifestUriAt item.2.fileName =
      some { manifestUriAt with absolutePath := channelDirectory ++ '/' :: item.2.fileName })
    (hitem : item ∈ supportedComponents) :
    resolveAndValidateSourceUri uris manifestUriAt item.2.fileName =
      .ok { manifestUriAt with absolutePath := channelDirectory ++ '/' :: item.2.fileName } := by
  have htrim : ∀ item ∈ supportedComponents, trim item.2.fileName = item.2.fileName := by decide
  have hscheme : ∀ item ∈ supportedComponents, (startsWithIgnoreCase item.2.fileName "http://".toList ||
      startsWithIgnoreCase item.2.fileName "https://".toList) = false := by decide
  rw [resolveAndValidateSourceUri, htrim item hitem, if_neg (by rw [hscheme item hitem]; decide), hrelative]
  simp [equalsIgnoreCase_self, pure, Except.pure, bind, Except.bind]

theorem validate_offered (hdigest : (sha256 []).length = 64 ∧ (sha256 []).all isHexDigit = true)
    (hrelative : uris.relative manifestUriAt item.2.fileName =
      some { manifestUriAt with absolutePath := channelDirectory ++ '/' :: item.2.fileName })
    (hitem : item ∈ supportedComponents) (hversion : isBlank version = false) :
    validateDefinition uris manifestUriAt item.1 (some (offered sha256 item.2 version)) = .ok (offered sha256 item.2 version) := by
  have hspec : ∀ item ∈ supportedComponents, findSupported item.1 = some item.2 := by decide
  have hurl : ∀ item ∈ supportedComponents, isBlank item.2.fileName = false := by decide
  have hsha : isSha256 (sha256 []) = true := by
    rw [isSha256]
    simp [hdigest.1, hdigest.2]
  have htrim : trim (sha256 []) = sha256 [] := dropWhile_ends fun c hc => isWhiteSpace_of_isHexDigit (List.all_eq_true.1 hdigest.2 c hc)
  have hends : endsWithIgnoreCase (channelDirectory ++ '/' :: item.2.fileName) ('/' :: item.2.fileName) = true := by
    rw [endsWithIgnoreCase, startsWithIgnoreCase, List.isPrefixOf_iff_prefix, List.reverse_append, List.map_append]
    exact List.prefix_append _ _
  rw [validateDefinition, hspec item hitem]
  simp [offered, hversion, htrim, hsha, hurl item hitem, equalsIgnoreCase_self, resolve_offered hrelative hitem, hends, bind, Except.bind,
    pure, Except.pure]

/-- A version that is offered is taken where what is installed is older or compares as equal. -/
theorem takes_offered (hdigest : (sha256 []).length = 64 ∧ (sha256 []).all isHexDigit = true)
    (hrelative : uris.relative manifestUriAt item.2.fileName =
      some { manifestUriAt with absolutePath := channelDirectory ++ '/' :: item.2.fileName })
    (hitem : item ∈ supportedComponents) (hversion : isBlank version = false)
    (hprovided : alreadyProvided (readInstalledComponentVersions m.channel.name m.packageManifest m.componentState) item.1
      (offered sha256 item.2 version) = .ok false) :
    ∃ component, checkComponents sha256 uris m (offering sha256 m.channel item version) = .ok [(upperName item.1, component)] ∧
      component.name = item.1 ∧ component.version = version := by
  have hspec : ∀ item ∈ supportedComponents, findSupported item.1 = some item.2 := by decide
  have hcached : ∃ component, ensureCachedComponent sha256 uris m (offering sha256 m.channel item version) item.1
      (offered sha256 item.2 version) = .ok component := by
    rw [ensureCachedComponent, hspec item hitem, Option.elim, ok_bind]
    dsimp only [offering, offered]
    rw [resolve_offered hrelative hitem, ok_bind]
    split
    · exact ⟨_, rfl⟩
    · simp [equalsIgnoreCase_upper, bind, Except.bind, pure, Except.pure]
  obtain ⟨component, hcomponent⟩ := hcached
  refine ⟨component, ?_, ensureCached_keeps hcomponent⟩
  have hmanifest : parseAndValidateManifest (offering sha256 m.channel item version).served m.channel.name =
      .ok [(item.1, some (offered sha256 item.2 version))] := by
    simp [parseAndValidateManifest, offering, equalsIgnoreCase_self, bind, Except.bind]
  have hstep : reconcileComponent sha256 uris m (offering sha256 m.channel item version)
      (readInstalledComponentVersions m.channel.name m.packageManifest m.componentState) []
      (item.1, some (offered sha256 item.2 version)) = .ok [(upperName item.1, component)] := by
    have hcompatible : ensureLauncherCompatibility (offering sha256 m.channel item version).launcherVersion
        (offered sha256 item.2 version).minLauncherVersion = .ok () := rfl
    rw [reconcileComponent]
    dsimp only
    rw [show (offering sha256 m.channel item version).manifestUri = manifestUriAt from rfl,
      validate_offered hdigest hrelative hitem hversion, ok_bind, hcompatible, ok_bind, hprovided, ok_bind, if_neg (by decide), hcomponent]
    rfl
  have horder : orderByName [(item.1, some (offered sha256 item.2 version))] = [(item.1, some (offered sha256 item.2 version))] := rfl
  rw [checkComponents, hmanifest, ok_bind, horder]
  dsimp only
  rw [List.foldlM_cons, hstep]
  rfl

/-- What is recorded is installed, and passes the check against a version that reads differently and compares as equal. -/
theorem provided_respelled {hash : Text}
    (hget : Dict.get (readInstalledComponentVersions m.channel.name m.packageManifest m.componentState) (upperName item.1) =
      some (version, hash)) (hhash : isSha256 hash = true) (hself : compareComponentVersions version (respelled version) = .ok .eq) :
    alreadyProvided (readInstalledComponentVersions m.channel.name m.packageManifest m.componentState) item.1
      (offered sha256 item.2 (respelled version)) = .ok false := by
  have hcompare : compareVersions version (respelled version) = .ok .eq := by
    rw [compareVersions, hself]
    rfl
  have hdiffer : equalsIgnoreCase version (respelled version) = false := by
    refine beq_eq_false_iff_ne.2 fun heq => ?_
    have hlength := congrArg List.length heq
    simp [respelled] at hlength
  rw [alreadyProvided, hget]
  dsimp only [offered]
  simp [validateComponentProgression, hcompare, hdiffer, isBlank_of_isSha256 hhash, bind, Except.bind, pure, Except.pure]

/-- The server can bring an older version into effect where an older one is recorded. -/
theorem older_inEffect {zip : ZipReader} {name packaged : Text} (hdigest : (sha256 []).length = 64 ∧ (sha256 []).all isHexDigit = true)
    (hrelative : ∀ item ∈ supportedComponents, uris.relative manifestUriAt item.2.fileName =
      some { manifestUriAt with absolutePath := channelDirectory ++ '/' :: item.2.fileName })
    (hrecorded : recordedVersion m name = some version) (hpackaged : packagedVersion m name = some packaged) (holder : Older version packaged) :
    ¬NeverBelowPackaged sha256 uris zip m := by
  obtain ⟨item, hitem, hname⟩ := supported_of_packaged hpackaged
  rw [recordedVersion, ← hname] at hrecorded
  obtain ⟨⟨version', hash⟩, hentry, rfl⟩ := Option.map_eq_some_iff.1 hrecorded
  have hhash : isSha256 hash = true := (isSha256_of_recorded hentry).resolve_right nofun
  have hinstalled : Dict.get (readInstalledComponentVersions m.channel.name m.packageManifest m.componentState) (upperName item.1) =
      some (version', hash) := by
    rw [readInstalledComponentVersions, get_addRecorded, hentry, Option.some_or]
  obtain ⟨hnumbers, -, hfits, -⟩ := compareComponentVersions_ok_iff.1 holder
  have hfitsRecorded := (List.forall_mem_append.1 hfits).1
  have hfitsRespelled : ∀ n ∈ numbersOf (respelled version'), n < 2 ^ 31 := by
    rw [numbersOf_respelled]
    exact List.forall_mem_append.2 ⟨hfitsRecorded, by simp⟩
  have hnumbersRespelled : numbersOf (respelled version') ≠ [] := by simp [numbersOf_respelled]
  have hforth : compareComponentVersions version' (respelled version') = .ok .eq :=
    compareComponentVersions_ok_iff.2 ⟨hnumbers, hnumbersRespelled, List.forall_mem_append.2 ⟨hfitsRecorded, hfitsRespelled⟩,
      by rw [numbersOf_respelled]; exact (compareNumbers_append_zero _).1⟩
  have hback : compareComponentVersions (respelled version') version' = .ok .eq :=
    compareComponentVersions_ok_iff.2 ⟨hnumbersRespelled, hnumbers, List.forall_mem_append.2 ⟨hfitsRespelled, hfitsRecorded⟩,
      by rw [numbersOf_respelled]; exact (compareNumbers_append_zero _).2⟩
  have hblank : isBlank (respelled version') = false :=
    List.all_eq_false.2 ⟨'.', List.mem_append_right _ List.mem_cons_self, by decide⟩
  obtain ⟨component, hcheck, hcomponent, hversion⟩ :=
    takes_offered (m := m) hdigest (hrelative item hitem) hitem hblank (provided_respelled hinstalled hhash hforth)
  intro hnever
  refine hnever unhindered (offering sha256 m.channel item (respelled version')) (item.1, respelled version') ?_ packaged ?_
    (older_of_compare hback (by decide) holder)
  · refine List.mem_append_right _ ?_
    rw [reconcileSelectedChannel, hcheck]
    exact List.mem_singleton.2 (Prod.ext hcomponent.symm hversion.symm)
  · rw [packagedVersion, hname]
    exact hpackaged

end

end PackagedAux

open PackagedAux in
/-- Whatever the server offers and the files allow, nothing older than the package comes into effect: exactly when nothing that the
state records, and no staged component that can be applied, is older. The digest is written in hexadecimal, and a file name is resolved
beside the manifest. -/
theorem never_below_packaged_iff (sha256 : Bytes → Text) (uris : Uris) (zip : ZipReader) (m : Installation)
    (hdigest : ∀ content, (sha256 content).length = 64 ∧ (sha256 content).all isHexDigit = true)
    (hrelative : ∀ base directory, base.absolutePath = directory ++ "/client_components_v2.json".toList → ∀ item ∈ supportedComponents,
      uris.relative base item.2.fileName = some { base with absolutePath := directory ++ '/' :: item.2.fileName }) :
    NeverBelowPackaged sha256 uris zip m ↔ RecordsUpToDate sha256 zip m := by
  refine ⟨fun h => ⟨fun name version packaged hrecorded hpackaged holder => ?_, fun component entry packaged hstaged hpackaged => ?_⟩,
    neverBelow_of_upToDate⟩
  · exact older_inEffect (hdigest []) (hrelative manifestUriAt channelDirectory rfl) hrecorded hpackaged holder h
  · obtain ⟨applied, happlied, rfl, hversion⟩ := applied_of_staged hstaged
    rw [← hversion]
    -- what the server does makes no difference to what is staged
    let silent : Surroundings :=
      { launcherVersion := [], manifestUri := manifestUriAt, served := .error .http, download := fun _ => none, canWrite := fun _ => true }
    exact h unhindered silent (applied.component, applied.version.getD []) (List.mem_append_left _ (List.mem_map_of_mem happlied)) packaged hpackaged

/-! ## After an upgrade -/

/-- The digest of the file that holds the byte 1. -/
def digestOfOne (_ : Bytes) : Text := "4bf5122f344554c53bde2ebb8cd2b7e3d1600ad631c385a5d7cce23c7785459a".toList

/-- A file name is resolved in the directory of the base. -/
def besideBase : Uris where
  absolute _ := none
  relative base value := some { base with absolutePath := (base.absolutePath.reverse.dropWhile (· ≠ '/')).reverse ++ value }

theorem besideBase_relative (base : SourceUri) (directory : Text)
    (h : base.absolutePath = directory ++ "/client_components_v2.json".toList) (file : Text) :
    besideBase.relative base file = some { base with absolutePath := directory ++ '/' :: file } := by
  have hreverse : (directory ++ "/client_components_v2.json".toList).reverse =
      "client_components_v2.json".toList.reverse ++ '/' :: directory.reverse := by
    rw [List.reverse_append]
    rfl
  have hname : ∀ c ∈ "client_components_v2.json".toList.reverse, decide (c ≠ '/') = true := List.all_eq_true.1 rfl
  have hdirectory : (base.absolutePath.reverse.dropWhile (· ≠ '/')).reverse = directory ++ ['/'] := by
    rw [h, hreverse, List.dropWhile_append_of_pos hname, List.dropWhile_cons_of_neg (by decide), List.reverse_cons, List.reverse_reverse]
  rw [besideBase]
  dsimp only
  rw [hdirectory, List.append_assoc]
  rfl

/-- A launcher with the hooks and the updater in version 2.0.0. -/
def installedWith (componentState : Option Json) : Installation where
  channel := .stable
  packageManifest := some (.object [("componentVersions".toList,
    .object [("hooks".toList, .str "2.0.0".toList), ("updater".toList, .str "2.0.0".toList)])])
  componentState
  persistentDataDirectory := "data".toList
  files path := if path = "data\\components\\updater\\1.0.0\\SCBL.Updater.exe".toList then some [1] else none

/-- Without a record nothing older than the package comes into effect. -/
theorem never_below_packaged_fresh : NeverBelowPackaged digestOfOne besideBase (fun _ => none) (installedWith none) := by
  refine (never_below_packaged_iff digestOfOne besideBase (fun _ => none) (installedWith none) (fun _ => ⟨rfl, rfl⟩)
    fun base directory h item _ => besideBase_relative base directory h item.2.fileName).2 ⟨fun _ _ _ h => ?_, fun _ _ _ h => ?_⟩
  · nomatch h
  · obtain ⟨_, h, -⟩ := h
    nomatch h

/-- What an earlier launcher recorded: both components in version 1.0.0. -/
def olderRecord : Json :=
  .object [("Channel".toList, .str "stable".toList),
    ("Components".toList, .object
      [("hooks".toList, .object [("Version".toList, .str "1.0.0".toList), ("Sha256".toList, .str (digestOfOne [1]))]),
        ("updater".toList, .object [("Version".toList, .str "1.0.0".toList), ("Sha256".toList, .str (digestOfOne [1])),
          ("FilePath".toList, .str "data\\components\\updater\\1.0.0\\SCBL.Updater.exe".toList)])])]

/-- The server still offers the hooks in version 1.0.0. -/
def olderServer : Surroundings where
  launcherVersion := "2.0.0".toList
  manifestUri := PackagedAux.manifestUriAt
  served := .ok (some { schemaVersion := 2, channel := "stable".toList,
                        components := some [("hooks".toList, some
                          { version := "1.0.0".toList, sha256 := digestOfOne [1], size := 1, url := "uplay_r1_loader.dll".toList
                            updateMode := "before-game-start".toList, required := true })] })
  download _ := some [1]
  canWrite _ := true

/-- After an upgrade to a launcher with version 2.0.0, the recorded updater 1.0.0 is applied over the packaged one, and the hooks in version
1.0.0 are taken for the launch. -/
theorem never_below_packaged_false :
    inEffect digestOfOne besideBase (fun _ => none) (installedWith (some olderRecord)) PackagedAux.unhindered olderServer =
        [("updater".toList, "1.0.0".toList), ("hooks".toList, "1.0.0".toList)] ∧
      packagedVersion (installedWith (some olderRecord)) "updater".toList = some "2.0.0".toList ∧
      packagedVersion (installedWith (some olderRecord)) "hooks".toList = some "2.0.0".toList ∧ Older "1.0.0".toList "2.0.0".toList ∧
      ¬NeverBelowPackaged digestOfOne besideBase (fun _ => none) (installedWith (some olderRecord)) := by
  have heffect : inEffect digestOfOne besideBase (fun _ => none) (installedWith (some olderRecord)) PackagedAux.unhindered olderServer =
      [("updater".toList, "1.0.0".toList), ("hooks".toList, "1.0.0".toList)] := by decide +kernel
  have hpackaged : packagedVersion (installedWith (some olderRecord)) "hooks".toList = some "2.0.0".toList := by decide +kernel
  have holder : Older "1.0.0".toList "2.0.0".toList := by
    rw [Older]
    decide +kernel
  refine ⟨heffect, by decide +kernel, hpackaged, holder, fun h => ?_⟩
  refine h PackagedAux.unhindered olderServer ("hooks".toList, "1.0.0".toList) ?_ _ hpackaged holder
  rw [heffect]
  exact List.mem_cons_of_mem _ (List.mem_singleton_self _)

end Scbl.Launcher
