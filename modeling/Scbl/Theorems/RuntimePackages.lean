import Scbl.Lib.Panic
import Scbl.Manager.Release

/-!
# What is extracted and staged of a runtime package

Whatever befalls it, an extraction adds files and directories below its destination only, of a limited size. A release that is staged has
the files of the manifest, with their digests, and the manifest.
-/

namespace Scbl.Manager.Release

open Scbl.Lib

/-- The trees of files. -/
abbrev Files : Type := FileTree FileName

/-- What an extraction may change: nothing but what is below the destination, where the files hold no more than 1 GiB. -/
structure Confined (destination : FilePath) (before after : Files) : Prop where
  below : ∀ path, after.node path ≠ before.node path → FileTree.IsBelow destination path
  size : after.sizeBelow destination ≤ maximumSize

/-- What a staged release has: the manifest it was staged by, and each file that it lists, the required ones among them; no others. -/
structure Staged (loads : Bytes → Except ReleaseFailure PyValue) (sha256 : Bytes → Text) (manifest : RuntimeManifest) (release : FilePath)
    (t : Files) : Prop where
  read : ∃ content raw, t.node (release ++ [manifestName]) = some (.file content) ∧ loads content = .ok raw ∧
    RuntimeManifest.parse raw = .ok manifest
  listed : ∀ item ∈ manifest.files, ∃ path content, osPath item.1 = some path ∧ t.node (release ++ path) = some (.file content) ∧
    sha256 content = item.2
  only : ∀ path content, t.node (release ++ path) = some (.file content) →
    path = [manifestName] ∨ ∃ item ∈ manifest.files, osPath item.1 = some path
  required : ∀ name ∈ requiredRuntimeFiles, ∃ path content, osPath (pyStr name) = some path ∧
    t.node (release ++ path) = some (.file content)

section Steps

variable {G F : Files → Prop} {failure : ReleaseFailure}

theorem keeps_refuseWhen {condition : Bool} {message : Text} :
    (refuseWhen condition message).Keeps G F (fun _ t => F t ∧ condition = false) := by
  cases condition with
  | true => exact Program.keeps_raise
  | false => exact Program.keeps_pure fun _ _ hF => ⟨hF, rfl⟩

theorem keeps_demand {A : Type} {value : Option A} : (demand failure value).Keeps G F (fun a t => F t ∧ value = some a) := by
  refine Program.keeps_ofExcept fun a t hvalue _ hF => ⟨hF, ?_⟩
  cases value with
  | none => nomatch hvalue
  | some a' => rw [Except.ok.inj hvalue]

theorem keeps_unseenCall : unseenCall.Keeps G F (fun _ => F) := Program.keeps_operation fun t _ t' hG hF hstep => by
  obtain ⟨-, rfl⟩ := Prod.mk.inj (Except.ok.inj hstep)
  exact ⟨hG, hF⟩

variable {loads : Bytes → Except ReleaseFailure PyValue} {sha256 : Bytes → Text} {packageDir : FilePath} {manifest : RuntimeManifest}

/-- A manifest was read from a directory. -/
def Loaded (loads : Bytes → Except ReleaseFailure PyValue) (packageDir : FilePath) (manifest : RuntimeManifest) (t : Files) : Prop :=
  ∃ content raw, t.node (packageDir ++ [manifestName]) = some (.file content) ∧ loads content = .ok raw ∧
    RuntimeManifest.parse raw = .ok manifest

/-- A file that is listed is below a directory and has its digest. -/
def IsListed (sha256 : Bytes → Text) (packageDir : FilePath) (t : Files) (item : PyStr × Text) : Prop :=
  ∃ path content, osPath item.1 = some path ∧ path ≠ [] ∧ t.node (packageDir ++ path) = some (.file content) ∧ sha256 content = item.2

theorem keeps_load : (RuntimeManifest.load loads packageDir).Keeps G F (fun manifest t => F t ∧ Loaded loads packageDir manifest t) := by
  refine Program.keeps_bind FileTree.keeps_readFile fun content => ?_
  refine Program.keeps_bind (R := fun raw t => (F t ∧ t.node (packageDir ++ [manifestName]) = some (.file content)) ∧ loads content = .ok raw)
    (Program.keeps_ofExcept fun raw t hraw _ hF => ⟨hF, hraw⟩) fun raw => ?_
  exact Program.keeps_ofExcept fun manifest t hparse _ hF => ⟨hF.1.1, content, raw, hF.1.2, hF.2, hparse⟩

theorem keeps_verifyFile {item : PyStr × Text} :
    (verifyFile sha256 packageDir item).Keeps G F (fun _ t => F t ∧ IsListed sha256 packageDir t item) := by
  refine Program.keeps_bind keeps_demand fun path => ?_
  refine Program.keeps_bind keeps_refuseWhen fun _ => ?_
  refine Program.keeps_bind FileTree.keeps_readFile fun content => ?_
  refine keeps_refuseWhen.mono (fun _ _ hF => hF) fun _ t _ hF => ?_
  obtain ⟨⟨⟨⟨hF, hpath⟩, hne⟩, hnode⟩, hdigest⟩ := hF
  exact ⟨hF, path, content, hpath, of_decide_eq_false hne, hnode, by simpa using hdigest⟩

theorem keeps_verify :
    (manifest.verify sha256 packageDir).Keeps G F (fun _ t => F t ∧ ∀ item ∈ manifest.files, IsListed sha256 packageDir t item) :=
  (Program.keeps_forM_steps (fun done t => F t ∧ ∀ item ∈ done, IsListed sha256 packageDir t item) fun _ _ _ _ =>
    keeps_verifyFile.mono (fun _ _ hF => hF) fun _ _ _ hF =>
      ⟨hF.1.1, List.forall_mem_append.mpr ⟨hF.1.2, List.forall_mem_singleton.mpr hF.2⟩⟩).mono
    (fun _ _ hF => ⟨hF, fun _ hmem => nomatch hmem⟩) fun _ _ _ hF => hF

end Steps

/-! ## Extraction -/

section Extraction

variable {before : Files} {destination : FilePath} {loads : Bytes → Except ReleaseFailure PyValue} {sha256 : Bytes → Text}
variable {F : Files → Prop}

/-- What leads to a path in the destination leads to the destination or is below it. -/
theorem isPrefix_or_isBelow {path rest : FilePath} (h : path <+: destination ++ rest) :
    path <+: destination ∨ FileTree.IsBelow destination path := by
  rcases List.prefix_or_prefix_of_prefix h (List.prefix_append destination rest) with habove | hbelow
  · exact .inl habove
  · by_cases heq : path = destination
    · exact .inl (heq ▸ List.prefix_rfl)
    · exact .inr ⟨hbelow, heq⟩

theorem keeps_makeAll_below (hroot : before.node destination = some .directory) {size : Nat} (hsize : size ≤ maximumSize) {path : FilePath}
    (hpath : ∃ rest, path <+: destination ++ rest) :
    (FileTree.makeAll ReleaseFailure.os path).Keeps (FileTree.Grown destination maximumSize before)
      (FileTree.Grown destination size before) (fun _ => FileTree.Grown destination size before) := by
  obtain ⟨rest, hrest⟩ := hpath
  refine FileTree.keeps_makeAll fun p hp t t' _ hgrown hmake => ?_
  have hgrown' := hgrown.makeDirectory hroot (isPrefix_or_isBelow (hp.trans hrest)) hmake
  exact ⟨hgrown'.mono hsize, hgrown'⟩

/-- The members are extracted below the destination, and what is written of them is not too much. -/
theorem keeps_extractMembers (hroot : before.node destination = some .directory) (members : List TarMember) (seen : List PyStr)
    {size : Nat} (hsize : size ≤ maximumSize) :
    (extractMembers destination members seen size).Keeps (FileTree.Grown destination maximumSize before)
      (FileTree.Grown destination size before) (fun _ _ => True) := by
  induction members generalizing seen size with
  | nil => exact Program.keeps_pure fun _ _ _ => trivial
  | cons member members ih =>
    unfold extractMembers
    dsimp only
    split
    · exact ih seen hsize
    · refine Program.keeps_bind keeps_refuseWhen fun _ => ?_
      refine Program.keeps_bind keeps_refuseWhen fun _ => ?_
      refine Program.keeps_bind keeps_refuseWhen fun _ => ?_
      refine Program.keeps_bind keeps_demand fun path => ?_
      refine Program.keeps_bind keeps_refuseWhen fun _ => ?_
      refine Program.keeps_of_imp (φ := member.kind ≠ .other ∧ size + member.size ≤ maximumSize ∧ path ≠ []) (fun t _ hF => ?_) ?_
      · obtain ⟨⟨⟨⟨-, hkind⟩, hlimit⟩, -⟩, hpath⟩ := hF
        exact ⟨of_decide_eq_false hkind, Nat.le_of_not_lt (of_decide_eq_false hlimit), of_decide_eq_false hpath⟩
      rintro ⟨hkind, hlimit, hpath⟩
      refine Program.Keeps.mono (F := FileTree.Grown destination size before) ?_ (fun _ _ hF => hF.1.1.1.1.1) fun _ _ _ h => h
      split
      · refine Program.keeps_bind (keeps_makeAll_below hroot hsize ⟨path, List.prefix_rfl⟩) fun _ => ?_
        exact (ih _ hlimit).mono (fun _ _ hF => hF.mono (Nat.le_add_right _ _)) fun _ _ _ h => h
      · rename_i hdirectory
        have hlength : member.content.length = member.size := by
          refine member.length_content ?_
          cases hmember : member.kind with
          | file => rfl
          | directory => exact absurd hmember hdirectory
          | other => exact absurd hmember hkind
        have hbelow : FileTree.IsBelow destination (destination ++ path) :=
          ⟨List.prefix_append _ _, fun heq => hpath (List.append_right_eq_self.mp heq)⟩
        refine Program.keeps_bind (keeps_makeAll_below hroot hsize ⟨path, List.dropLast_prefix _⟩) fun _ => ?_
        refine Program.keeps_bind (R := fun _ => FileTree.Grown destination (size + member.size) before) ?_ fun _ => ih _ hlimit
        refine FileTree.keeps_changeContent (fun t t' bytes _ hgrown hcontent hplace => ?_) fun t t' bytes k _ hgrown hcontent hplace => ?_
        · obtain rfl := Option.some.inj hcontent
          have hgrown' := hgrown.place hbelow hplace
          rw [FileNode.size, hlength] at hgrown'
          exact ⟨hgrown'.mono hlimit, hgrown'⟩
        · obtain rfl := Option.some.inj hcontent
          refine (hgrown.place hbelow hplace).mono (le_trans (Nat.add_le_add_left ?_ size) hlimit)
          rw [FileNode.size, List.length_take, ← hlength]
          exact Nat.min_le_right _ _

theorem keeps_findManifests {G : Files → Prop} : (findManifests destination).Keeps G F (fun _ => F) :=
  Program.keeps_operation fun t paths t' hG hF hstep => by
    obtain ⟨-, rfl⟩ := Prod.mk.inj (Except.ok.inj hstep)
    exact ⟨hG, hF⟩

/-- However an extraction ends, it has only added files and directories below its destination. -/
theorem keeps_extract (loads : Bytes → Except ReleaseFailure PyValue) (sha256 : Bytes → Text)
    (hroot : before.node destination = some .directory) (archive : Except ReleaseFailure (List TarMember)) :
    (extractRuntimeArchive loads sha256 archive destination).Keeps (FileTree.Grown destination maximumSize before)
      (FileTree.Grown destination 0 before) (fun _ _ => True) := by
  refine Program.keeps_bind (keeps_makeAll_below hroot (Nat.zero_le _) ⟨[], by rw [List.append_nil]⟩) fun _ => ?_
  refine Program.keeps_bind (R := fun _ => FileTree.Grown destination 0 before) (Program.keeps_ofExcept fun _ _ _ _ hF => hF) fun members => ?_
  refine Program.keeps_bind keeps_refuseWhen fun _ => ?_
  refine Program.keeps_bind ((keeps_extractMembers hroot members [] (Nat.zero_le _)).mono (fun _ _ hF => hF.1) fun _ _ _ h => h) fun _ => ?_
  refine Program.keeps_bind keeps_findManifests fun manifests => ?_
  split
  · refine Program.keeps_bind keeps_load fun manifest => ?_
    refine Program.keeps_bind keeps_verify fun _ => ?_
    exact Program.keeps_pure fun _ _ _ => trivial
  · exact Program.keeps_raise

/-- An extraction into an empty directory is confined to it. -/
theorem confined_extract (hroot : before.node destination = some .directory)
    (hempty : ∀ path, FileTree.IsBelow destination path → before.node path = none) (archive : Except ReleaseFailure (List TarMember))
    (mishaps : Mishaps) :
    Confined destination before ((extractRuntimeArchive loads sha256 archive destination).run mishaps before).state := by
  have hgrown := (keeps_extract loads sha256 hroot archive).state mishaps (FileTree.Grown.refl _ _ _)
    (FileTree.Grown.refl _ _ _)
  exact ⟨fun path hne => by_contra fun houtside => hne (hgrown.node_outside houtside), hgrown.sizeBelow_le hroot hempty⟩

end Extraction

/-! ## Staging -/

section Staging

variable {loads : Bytes → Except ReleaseFailure PyValue} {sha256 : Bytes → Text} {manifest : RuntimeManifest}
variable {packageDir releasesDir temporary target : FilePath} {s t t' : Files} {files done : List (PyStr × Text)} {item : PyStr × Text}

/-- Where nothing fails to be asked for, what a part of a program leaves. -/
def Always : Files → Prop := fun _ => True

/-- The temporary directory has files that are listed, in their directories; all else is as it was. -/
structure Mirrored (s : Files) (temporary : FilePath) (files done : List (PyStr × Text)) (t : Files) : Prop where
  root : t.node temporary = some .directory
  outside : ∀ path, ¬ temporary <+: path → t.node path = s.node path
  file : ∀ path content, t.node (temporary ++ path) = some (.file content) → ∃ item ∈ done, osPath item.1 = some path
  directory : ∀ path, t.node (temporary ++ path) = some .directory → path = [] ∨
    ∃ item ∈ files, ∃ listed, osPath item.1 = some listed ∧ path <+: listed ∧ path ≠ listed

/-- A package of which all listed files are there, as the manifest is. -/
structure Packaged (loads : Bytes → Except ReleaseFailure PyValue) (sha256 : Bytes → Text) (packageDir : FilePath)
    (manifest : RuntimeManifest) (t : Files) : Prop where
  loaded : Loaded loads packageDir manifest t
  listed : ∀ item ∈ manifest.files, IsListed sha256 packageDir t item

theorem Packaged.of_kept (h : Packaged loads sha256 packageDir manifest t)
    (hkept : ∀ path node, t.node path = some node → t'.node path = some node) : Packaged loads sha256 packageDir manifest t' := by
  obtain ⟨content, raw, hnode, hraw, hparse⟩ := h.loaded
  refine ⟨⟨content, raw, hkept _ _ hnode, hraw, hparse⟩, fun item hitem => ?_⟩
  obtain ⟨path, content, hpath, hne, hnode, hdigest⟩ := h.listed item hitem
  exact ⟨path, content, hpath, hne, hkept _ _ hnode, hdigest⟩

theorem kept_makeDirectory {path : FilePath} (h : t.makeDirectory path = some t') {p : FilePath} {node : FileNode}
    (hnode : t.node p = some node) : t'.node p = some node := by
  obtain ⟨hold, hnew⟩ := FileTree.makeDirectory_eq_some h
  rw [hnew]
  split
  · rename_i hp
    subst hp
    rcases hold with hold | hold <;> rw [hold] at hnode
    · exact hnode
    · nomatch hnode
  · exact hnode

/-- The temporary directory is made where nothing is. -/
theorem mirrored_place (h : s.place temporary .directory = some t) : Mirrored s temporary files [] t := by
  obtain ⟨⟨-, -, hnone⟩, hnode⟩ := FileTree.place_eq_some h
  have hbelow : ∀ path node, t.node (temporary ++ path) = some node → path = [] ∧ node = .directory := by
    intro path node hpath
    rw [hnode] at hpath
    split at hpath
    · rename_i heq
      exact ⟨List.append_right_eq_self.mp heq, (Option.some.inj hpath).symm⟩
    · rw [FileTree.node_below_none hnone] at hpath
      nomatch hpath
  refine ⟨by rw [hnode, if_pos rfl], fun path hpath => ?_, fun path content hfile => ?_,
    fun path hdirectory => .inl (hbelow _ _ hdirectory).1⟩
  · have hne : path ≠ temporary := by
      rintro rfl
      exact hpath List.prefix_rfl
    rw [hnode, if_neg hne]
  · nomatch (hbelow _ _ hfile).2

/-- Directories that lead to a listed file are made in the temporary directory. -/
theorem Mirrored.makeDirectory (h : Mirrored s temporary files done t) (hitem : item ∈ files) {path p : FilePath}
    (hpath : osPath item.1 = some path) (hne : path ≠ []) (hp : p <+: (temporary ++ path).dropLast) (hmake : t.makeDirectory p = some t') :
    Mirrored s temporary files done t' := by
  obtain ⟨hold, hnew⟩ := FileTree.makeDirectory_eq_some hmake
  rw [List.dropLast_append_of_ne_nil hne] at hp
  refine ⟨kept_makeDirectory hmake h.root, fun q hq => ?_, fun rest content hfile => ?_, fun rest hdirectory => ?_⟩
  · rw [← h.outside q hq, hnew]
    split
    · rename_i heq
      subst heq
      -- the directory leads to the temporary one
      have habove : q <+: temporary := (List.prefix_or_prefix_of_prefix hp (List.prefix_append _ _)).resolve_right hq
      exact (FileTree.node_of_isPrefix (by rw [h.root]; rfl) habove fun heq => hq (heq ▸ List.prefix_rfl)).symm
    · rfl
  · rw [hnew] at hfile
    split at hfile
    · cases hfile
    · exact h.file rest content hfile
  · rw [hnew] at hdirectory
    split at hdirectory
    · rename_i heq
      rw [← heq] at hp
      have hrest := List.prefix_append_right_inj temporary |>.mp hp
      exact .inr ⟨item, hitem, path, hpath, (FileTree.isPrefix_dropLast_iff hne).mp hrest⟩
    · exact h.directory rest hdirectory

/-- A listed file that is not where a directory is. -/
theorem Mirrored.not_directory (h : Mirrored s temporary manifest.files done t) (hpackaged : Packaged loads sha256 packageDir manifest s)
    {path : FilePath} {content : Bytes} (hne : path ≠ []) (hnode : s.node (packageDir ++ path) = some (.file content)) :
    t.node (temporary ++ path) ≠ some .directory := by
  intro hdirectory
  rcases h.directory path hdirectory with hnil | ⟨item, hitem, listed, hlisted, hleads, hdiffer⟩
  · exact hne hnil
  · obtain ⟨listed', content', hlisted', -, hnode', -⟩ := hpackaged.listed item hitem
    obtain rfl := Option.some.inj (hlisted.symm.trans hlisted')
    have habove := FileTree.node_of_isPrefix (by rw [hnode']; rfl) ((List.prefix_append_right_inj packageDir).mpr hleads)
      fun heq => hdiffer (List.append_cancel_left heq)
    cases habove.symm.trans hnode

/-- A file of the package is copied to its place in the temporary directory. -/
theorem Mirrored.copy (h : Mirrored s temporary manifest.files done t) (hpackaged : Packaged loads sha256 packageDir manifest s)
    {path : FilePath} {content bytes : Bytes} (hne : path ≠ []) (hnode : s.node (packageDir ++ path) = some (.file content))
    (hcopy : t.write (if t.node (temporary ++ path) = some .directory then temporary ++ path ++ (packageDir ++ path).getLast?.toList
      else temporary ++ path) bytes = some t') :
    ∀ p, t'.node p = if p = temporary ++ path then some (.file bytes) else t.node p := by
  rw [if_neg (h.not_directory hpackaged hne hnode)] at hcopy
  exact (FileTree.write_eq_some hcopy).2

theorem keeps_stageFile (hpackaged : Packaged loads sha256 packageDir manifest s) (hitem : item ∈ manifest.files) :
    (stageFile packageDir temporary item).Keeps Always (Mirrored s temporary manifest.files done)
      (fun _ => Mirrored s temporary manifest.files (done ++ [item])) := by
  obtain ⟨path, content, hpath, hne, hnode, -⟩ := hpackaged.listed item hitem
  refine Program.keeps_bind keeps_demand fun path' => ?_
  refine Program.keeps_of_imp (φ := path' = path) (fun t _ hF => Option.some.inj (hF.2.symm.trans hpath)) ?_
  rintro rfl
  refine Program.Keeps.mono (F := Mirrored s temporary manifest.files done) ?_ (fun _ _ hF => hF.1) fun _ _ _ h => h
  refine Program.keeps_bind (FileTree.keeps_makeAll fun p hp t t' hG hmirrored hmake =>
    ⟨hG, hmirrored.makeDirectory hitem hpath hne hp hmake⟩) fun _ => ?_
  refine Program.keeps_bind keeps_unseenCall fun _ => ?_
  refine Program.keeps_bind ?_ fun _ => keeps_unseenCall
  refine FileTree.keeps_changeContent (fun t t' bytes _ hmirrored _ hcopy => ⟨trivial, ?_⟩) fun _ _ _ _ _ _ _ _ => trivial
  have hwritten := hmirrored.copy hpackaged hne hnode hcopy
  refine ⟨?_, fun p hp => ?_, fun rest file hfile => ?_, fun rest hdirectory => ?_⟩
  · rw [hwritten, if_neg fun heq => hne (List.append_right_eq_self.mp heq.symm)]
    exact hmirrored.root
  · have hne' : p ≠ temporary ++ path' := by
      rintro rfl
      exact hp (List.prefix_append _ _)
    rw [hwritten, if_neg hne']
    exact hmirrored.outside p hp
  · rw [hwritten] at hfile
    split at hfile
    · rename_i heq
      exact ⟨item, List.mem_append_right _ List.mem_cons_self, (List.append_cancel_left heq) ▸ hpath⟩
    · obtain ⟨other, hother, hlisted⟩ := hmirrored.file rest file hfile
      exact ⟨other, List.mem_append_left _ hother, hlisted⟩
  · rw [hwritten] at hdirectory
    split at hdirectory
    · nomatch hdirectory
    · exact hmirrored.directory rest hdirectory

/-- The required files are listed in a manifest that is read. -/
theorem required_of_parse {raw : PyValue} (h : RuntimeManifest.parse raw = .ok manifest) :
    ∀ name ∈ requiredRuntimeFiles, ∃ digest, (pyStr name, digest) ∈ manifest.files := by
  obtain ⟨items, -, h⟩ := bind_eq_ok.mp h
  obtain ⟨-, -, h⟩ := bind_eq_ok.mp h
  obtain ⟨-, -, h⟩ := bind_eq_ok.mp h
  obtain ⟨version, -, h⟩ := bind_eq_ok.mp h
  obtain ⟨files, -, h⟩ := bind_eq_ok.mp h
  obtain ⟨normalized, -, h⟩ := bind_eq_ok.mp h
  obtain ⟨_, hmissing, h⟩ := bind_eq_ok.mp h
  obtain rfl := Except.ok.inj h
  intro name hname
  by_contra hnot
  have hunlisted : (requiredRuntimeFiles.filter (fun name => !(normalized.map Prod.fst).contains (pyStr name))).isEmpty = false := by
    refine List.isEmpty_eq_false_iff_exists_mem.mpr ⟨name, List.mem_filter.mpr ⟨hname, ?_⟩⟩
    rw [Bool.not_eq_true', ← Bool.not_eq_true, List.contains_iff_mem]
    intro hmem
    obtain ⟨⟨name', digest⟩, hitem, heq⟩ := List.mem_map.mp hmem
    exact hnot ⟨digest, heq ▸ hitem⟩
  rw [hunlisted] at hmissing
  nomatch hmissing

/-- A release that is filled is staged. -/
theorem keeps_fillRelease (hnew : s.node temporary = none) (hpackaged : Packaged loads sha256 packageDir manifest s) :
    (fillRelease sha256 manifest packageDir temporary target).Keeps Always (Mirrored s temporary manifest.files [])
      (fun _ => Staged loads sha256 manifest target) := by
  obtain ⟨content, raw, hnode, hraw, hparse⟩ := hpackaged.loaded
  refine Program.keeps_bind keeps_unseenCall fun _ => ?_
  refine Program.keeps_bind (Program.keeps_forM_steps (Mirrored s temporary manifest.files) fun done item rest hsplit =>
    keeps_stageFile hpackaged (hsplit ▸ List.mem_append_right _ List.mem_cons_self)) fun _ => ?_
  refine Program.keeps_bind (R := fun _ t => t.node (temporary ++ [manifestName]) = some (.file content) ∧
    ∀ path file, t.node (temporary ++ path) = some (.file file) →
      path = [manifestName] ∨ ∃ item ∈ manifest.files, osPath item.1 = some path) ?_ fun _ => ?_
  · refine FileTree.keeps_changeContent (fun t t' bytes _ hmirrored hcontent hcopy => ⟨trivial, ?_⟩) fun _ _ _ _ _ _ _ _ => trivial
    have hsource : ¬ temporary <+: packageDir ++ [manifestName] := by
      rintro ⟨rest, heq⟩
      rw [← heq, FileTree.node_below_none hnew] at hnode
      nomatch hnode
    have hbytes : bytes = content := by
      have hthere := (hmirrored.outside _ hsource).symm.trans (FileTree.contentAt_eq_some.mp hcontent)
      rw [hnode] at hthere
      exact (FileNode.file.inj (Option.some.inj hthere)).symm
    have hwritten := hmirrored.copy hpackaged (List.cons_ne_nil _ _) hnode hcopy
    refine ⟨by rw [hwritten, if_pos rfl, hbytes], fun path file hfile => ?_⟩
    rw [hwritten] at hfile
    split at hfile
    · rename_i heq
      exact .inl (List.append_cancel_left heq)
    · exact .inr (hmirrored.file path file hfile)
  · refine Program.keeps_bind keeps_verify fun _ => FileTree.keeps_change fun t t' _ hF hmove => ⟨trivial, ?_⟩
    obtain ⟨⟨hmanifest, honly⟩, hlisted⟩ := hF
    have hmoved := FileTree.node_move hmove
    have hthere : ∀ item ∈ manifest.files, ∃ path content, osPath item.1 = some path ∧ t'.node (target ++ path) = some (.file content) ∧
        sha256 content = item.2 := by
      intro item hitem
      obtain ⟨path, file, hpath, -, hfile, hdigest⟩ := hlisted item hitem
      exact ⟨path, file, hpath, by rw [hmoved, hfile], hdigest⟩
    refine ⟨⟨content, raw, by rw [hmoved, hmanifest], hraw, hparse⟩, hthere, fun path file hfile => ?_, fun name hname => ?_⟩
    · rw [hmoved] at hfile
      exact honly path file hfile
    · obtain ⟨digest, hitem⟩ := required_of_parse hparse name hname
      obtain ⟨path, file, hpath, hfile, -⟩ := hthere _ hitem
      exact ⟨path, file, hpath, hfile⟩

/-- A release that is staged has what it should. -/
theorem keeps_stageRelease (loads : Bytes → Except ReleaseFailure PyValue) (sha256 : Bytes → Text)
    (packageDir releasesDir : FilePath) (stamp : Text) (drawn : FileName) :
    (stageRelease loads sha256 packageDir releasesDir stamp drawn).Keeps Always Always
      (fun result => Staged loads sha256 result.2 result.1) := by
  refine Program.keeps_bind keeps_load fun manifest => ?_
  refine Program.keeps_bind keeps_verify fun _ => ?_
  refine Program.Keeps.mono (F := Packaged loads sha256 packageDir manifest) ?_ (fun _ _ hF => ⟨hF.1.2, hF.2⟩) fun _ _ _ h => h
  refine Program.keeps_bind (FileTree.keeps_makeAll fun p _ t t' hG hpackaged hmake =>
    ⟨hG, hpackaged.of_kept fun _ _ => kept_makeDirectory hmake⟩) fun _ => ?_
  refine Program.keeps_bind (R := fun _ => Packaged loads sha256 packageDir manifest) (Program.keeps_query fun _ _ hF => hF) fun existing => ?_
  refine Program.keeps_bind keeps_refuseWhen fun _ => ?_
  refine Program.keeps_bind (R := fun _ t => ∃ s : Files, s.node (releasesDir ++ [drawn]) = none ∧
    Packaged loads sha256 packageDir manifest s ∧ Mirrored s (releasesDir ++ [drawn]) manifest.files [] t) ?_ fun _ => ?_
  · refine FileTree.keeps_change fun t t' _ hF hplace => ⟨trivial, t, (FileTree.place_eq_some hplace).1.2.2, hF.1, mirrored_place hplace⟩
  · refine Program.keeps_bind (R := fun _ => Staged loads sha256 manifest _) (Program.keeps_tryCatch ?_ fun e => ?_) fun _ =>
      Program.keeps_pure fun _ _ h => h
    · intro mishaps t hF
      obtain ⟨hG, s, hnew, hpackaged, hmirrored⟩ := hF
      exact keeps_fillRelease hnew hpackaged mishaps t ⟨hG, hmirrored⟩
    · refine Program.keeps_bind (R := fun _ => Always) (Program.keeps_tryCatch ?_ fun _ => Program.keeps_pure fun _ _ _ => trivial)
        fun _ => Program.keeps_raise
      exact FileTree.keeps_change fun _ _ _ _ _ => ⟨trivial, trivial⟩

end Staging

/-- However an extraction into an empty directory ends, it has only added files and directories below it, and the files hold at most 1 GiB;
and where it returns and a release is staged, this has the manifest and, each with its digest, just the files that the manifest lists,
the required ones among them. -/
theorem runtime_package_confined (loads : Bytes → Except ReleaseFailure PyValue) (sha256 : Bytes → Text)
    (archive : Except ReleaseFailure (List TarMember)) {destination : FilePath} {before : Files}
    (hroot : before.node destination = some .directory) (hempty : ∀ path, FileTree.IsBelow destination path → before.node path = none)
    (mishaps : Mishaps) :
    Confined destination before ((extractRuntimeArchive loads sha256 archive destination).run mishaps before).state ∧
      ∀ packageDir rest extracted,
        (extractRuntimeArchive loads sha256 archive destination).run mishaps before = .done packageDir rest extracted →
        ∀ releasesDir stamp drawn mishaps' target manifest rest' staged,
          (stageRelease loads sha256 packageDir releasesDir stamp drawn).run mishaps' extracted = .done (target, manifest) rest' staged →
            Staged loads sha256 manifest target staged := by
  refine ⟨confined_extract hroot hempty archive mishaps, fun packageDir rest extracted _ releasesDir stamp drawn mishaps' target manifest rest'
    staged hstage => ?_⟩
  have hends := keeps_stageRelease loads sha256 packageDir releasesDir stamp drawn mishaps' extracted ⟨trivial, trivial⟩
  rw [hstage] at hends
  exact hends.2

/-! ## A package -/

def sampleDigest (_ : Bytes) : Text := List.replicate 64 '0'

/-- A manifest that lists the required files. -/
def sampleLoads (_ : Bytes) : Except ReleaseFailure PyValue :=
  .ok (.dict
    [ (pyStr "schemaVersion".toList, .int 1), (pyStr "packageType".toList, .str (pyStr "scbl-server-runtime".toList)),
      (pyStr "version".toList, .str (pyStr "2.0.7".toList)),
      (pyStr "files".toList, .dict (requiredRuntimeFiles.map (fun name => (pyStr name, .str (pyStr (sampleDigest [])))))) ])

def sampleMember (name : Text) : TarMember where
  name := pyStr name
  kind := .file
  size := 1
  content := [1]
  length_content _ := rfl

def sampleArchive : Except ReleaseFailure (List TarMember) := .ok (("server-package.json".toList :: requiredRuntimeFiles).map sampleMember)

def sampleManifest : RuntimeManifest where
  version := "2.0.7".toList
  files := requiredRuntimeFiles.map (fun name => (pyStr name, sampleDigest []))

/-- The files after an extraction to the root. -/
def sampleExtracted : Files := ((extractRuntimeArchive sampleLoads sampleDigest sampleArchive []).run [] FileTree.empty).state

def sampleReleases : FilePath := [Text.toBytes "releases".toList]

def sampleTarget : FilePath := sampleReleases ++ [Text.toBytes "2.0.7-20260101000000".toList]

/-- The files after a release is staged. -/
def sampleStaged : Files :=
  ((stageRelease sampleLoads sampleDigest [] sampleReleases "20260101000000".toList (Text.toBytes ".new".toList)).run [] sampleExtracted).state

theorem runtime_package_confined_sample : Confined [] FileTree.empty sampleExtracted ∧
    Staged sampleLoads sampleDigest sampleManifest sampleTarget sampleStaged := by
  have hempty : ∀ path, FileTree.IsBelow [] path → (FileTree.empty : Files).node path = none := by
    rintro path ⟨-, hne⟩
    rw [FileTree.node_empty, if_neg hne]
  obtain ⟨hconfined, hstaged⟩ := runtime_package_confined sampleLoads sampleDigest sampleArchive (FileTree.node_empty []) hempty []
  exact ⟨hconfined, hstaged [] [] sampleExtracted rfl sampleReleases "20260101000000".toList (Text.toBytes ".new".toList) [] sampleTarget
    sampleManifest [] sampleStaged rfl⟩

end Scbl.Manager.Release
