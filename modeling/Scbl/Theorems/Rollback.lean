import Scbl.Manager.Deployment

/-!
# Deployments that fail

A rollback puts the link to the current release and the manager back, and nothing else. So a deployment that fails has restored the
server exactly when the link led straight to its release and every file that was written before the step that raised had held what was
written.
-/

namespace Scbl.Manager

open Scbl.Lib

def unitNames : List Text :=
  ["scbl-tunnel.service".toList, "scbl-dedicated.service".toList, "scbl-control-plane.service".toList, "scbl-update.service".toList]

/-- The files of the configuration, in the order in which they are written. -/
def writeOrder : List ServerFile := [.runtimeEnv, .easytier, .dedicated, .clientManifest] ++ unitNames.map .unit

/-- The link, the manager and the files of the configuration are what they were. -/
structure Restored (s s' : Server) : Prop where
  current : s'.current = s.current
  files : ∀ file ∈ .manager :: writeOrder, s'.files file = s.files file

/-- How many files of the configuration are written before a step raises. -/
def position (package : DeploymentPackage) : Step → Nat
  | .cleanUp .runtimeEnv | .write .easytier => 1
  | .cleanUp .easytier | .write .dedicated => 2
  | .cleanUp .dedicated | .own .dedicated | .write .balancing | .own .balancing | .write .clientManifest => 3
  | .cleanUp .clientManifest | .own .clientManifest | .write .waitScript | .cleanUp .waitScript => 4
  | .dropIn name | .write (.unit name) => 4 + unitNames.idxOf name
  | .cleanUp (.unit name) => 5 + unitNames.idxOf name
  | .reload | .firewall | .enable | .restart | .health => 8
  | .write .manager | .cleanUp .manager => if package.runtime.isSome then 8 else 0
  | _ => 0

/-- What a deployment writes into a file of the configuration. -/
def newContent (loads : Bytes → Option Json) (dumps : Json → Bytes) (drawn : Bytes) (config : ServerConfig) (s : Server) :
    ServerFile → Option Bytes
  | .runtimeEnv => (renderRuntimeEnv config managerVersion).toOption.map Text.toBytes
  | .easytier => some (Text.toBytes (renderEasytierConfig config))
  | .dedicated => (renderDedicatedConfig config (some ((s.files .ticketKey).getD drawn)) drawn).toOption.map Text.toBytes
  | .clientManifest => bootstrapContent loads dumps config (s.files .clientManifest)
  | .unit name => ((renderSystemdUnits config).lookup name).map Text.toBytes
  | _ => none

/-- The link, if there is one, has the path of its release itself. -/
def LinkDirect (s : Server) : Prop :=
  match s.current with
  | .absent => True
  | .link target => s.resolve target = target ∧ s.paths target = some true
  | .file | .directory => False

namespace RollbackAux

section Rules

variable {I J : Server → Prop} {E : DeploymentException → Mishaps → Server → Prop} {e : DeploymentException}

theorem meets_unseenCall (hE : ∀ mishaps s, I s → E e mishaps s) :
    (unseenCall e).Meets (fun _ s => I s) (fun _ _ s => I s) E (fun _ => True) := by
  refine Program.meets_operation_any (J := fun _ s => I s) ?_ (fun mishaps s _ hI hstep => nomatch hstep)
    (fun mishaps s _ hI => hE mishaps s hI) (fun _ _ _ => trivial)
  intro s _ s' hI hstep
  obtain ⟨-, rfl⟩ := Prod.mk.inj (Except.ok.inj hstep)
  exact hI

theorem meets_changeServer {f : Server → Server} (hdone : ∀ s, I s → J (f s)) (hE : ∀ mishaps s, I s → E e mishaps s) :
    (changeServer e f).Meets (fun _ s => I s) (fun _ _ s => J s) E (fun _ => True) := by
  refine Program.meets_operation_any (J := fun _ s => J s) ?_ (fun mishaps s _ hI hstep => nomatch hstep)
    (fun mishaps s _ hI => hE mishaps s hI) (fun _ _ _ => trivial)
  intro s _ s' hI hstep
  obtain ⟨-, rfl⟩ := Prod.mk.inj (Except.ok.inj hstep)
  exact hdone s hI

theorem meets_require {condition : Bool} (hdone : condition = true → ∀ s, I s → J s) (hE : ∀ mishaps s, I s → E e mishaps s) :
    (require e condition).Meets (fun _ s => I s) (fun _ _ s => J s) E (fun _ => True) := by
  cases condition with
  | true => exact Program.meets_pure fun _ s hI => hdone rfl s hI
  | false => exact Program.meets_raise hE

/-- A file is replaced: what holds before the new one is there, and after. -/
theorem meets_atomicReplace {e' : DeploymentException} {file : ServerFile} {content : Bytes}
    (hdone : ∀ s, I s → J (s.write file (some content))) (hbefore : ∀ mishaps s, I s → E e mishaps s)
    (hafter : ∀ mishaps s, J s → E e' mishaps s) :
    (atomicReplace e e' file content).Meets (fun _ s => I s) (fun _ _ s => J s) E (fun _ => True) :=
  Program.meets_bind (meets_unseenCall hbefore) fun _ => Program.meets_bind (meets_changeServer hdone hbefore) fun _ =>
    meets_unseenCall hafter

/-- The link is set. -/
theorem meets_activateRelease {target : Text} (hdone : ∀ s, I s → J (s.setCurrent (.link target)))
    (hE : ∀ mishaps s, I s → E e mishaps s) :
    (activateRelease e target).Meets (fun _ s => I s) (fun _ _ s => J s) E (fun _ => True) := by
  refine Program.meets_bind (Program.meets_query (Q := fun _ _ s => I s) fun _ _ hI => hI) fun present => ?_
  refine Program.meets_bind (meets_require (fun _ _ hI => hI) hE) fun _ => ?_
  refine Program.meets_bind (Program.meets_query (Q := fun _ _ s => I s) fun _ _ hI => hI) fun previous => ?_
  refine Program.meets_bind (Program.meets_query (Q := fun _ _ s => I s) fun _ _ hI => hI) fun occupied => ?_
  refine Program.meets_bind (meets_require (fun _ _ hI => hI) hE) fun _ => ?_
  refine Program.meets_bind (meets_unseenCall hE) fun _ => ?_
  exact Program.meets_bind (meets_changeServer hdone hE) fun _ => Program.meets_pure fun _ _ hJ => hJ

/-- The link is removed, unless it is a directory. -/
theorem meets_unlinkCurrent (hdone : ∀ s, I s → J (s.setCurrent .absent)) (hE : ∀ mishaps s, E .rollback mishaps s) :
    unlinkCurrent.Meets (fun _ s => I s) (fun _ _ s => J s) E (fun _ => True) := by
  refine Program.meets_operation_any (J := fun _ s => J s) ?_ ?_ (fun mishaps s _ _ => hE mishaps s) (fun _ _ _ => trivial)
  · intro s _ s' hI hstep
    split at hstep
    · nomatch hstep
    · obtain ⟨-, rfl⟩ := Prod.mk.inj (Except.ok.inj hstep)
      exact hdone s hI
  · intro mishaps s e' hI hstep
    split at hstep
    · rw [← Except.error.inj hstep]
      exact hE mishaps s
    · nomatch hstep

end Rules

/-! ### Names -/

/-- The files that are written up to a place in the order, and the one at that place. -/
theorem mem_take_succ {k : Nat} {file file' : ServerFile} (hfile : writeOrder[k]? = some file) :
    file' ∈ writeOrder.take (k + 1) ↔ file' ∈ writeOrder.take k ∨ file' = file := by
  rw [List.take_add_one, hfile, List.mem_append, Option.toList_some, List.mem_singleton]

/-- Where a unit stands among those of a configuration. -/
theorem unit_place {config : ServerConfig} {before after : List (Text × Text)} {item : Text × Text}
    (h : before ++ item :: after = renderSystemdUnits config) :
    writeOrder[4 + before.length]? = some (.unit item.1) ∧ unitNames.idxOf item.1 = before.length ∧
      (renderSystemdUnits config).lookup item.1 = some item.2 := by
  have hnames : before.map (·.1) ++ item.1 :: after.map (·.1) = unitNames := by
    have hmap := congrArg (List.map Prod.fst) h
    rwa [List.map_append, List.map_cons] at hmap
  have hnodup : unitNames.Nodup := by decide
  rw [← hnames] at hnodup
  have hnot : item.1 ∉ before.map (·.1) := fun hmem => (List.nodup_append.mp hnodup).2.2 _ hmem _ List.mem_cons_self rfl
  refine ⟨?_, ?_, ?_⟩
  · have hget : unitNames[before.length]? = some item.1 := by
      rw [← hnames, List.getElem?_append_right (by rw [List.length_map]), List.length_map, Nat.sub_self, List.getElem?_cons_zero]
    rw [writeOrder, List.getElem?_append_right (by exact Nat.le_add_right _ _), List.getElem?_map]
    exact (congrArg (Option.map ServerFile.unit) ((congrArg (unitNames[·]?) (Nat.add_sub_cancel_left _ _)).trans hget))
  · rw [← hnames, List.idxOf_append_of_notMem hnot, List.idxOf_cons_self, List.length_map, Nat.add_zero]
  · rw [← h]
    clear h hnames hnodup
    induction before with
    | nil => exact List.lookup_cons_self
    | cons first before ih =>
      have hne : (item.1 == first.1) = false := by
        simp only [List.map_cons, List.mem_cons, not_or] at hnot
        exact beq_eq_false_iff_ne.mpr hnot.1
      obtain ⟨name, content⟩ := first
      rw [List.cons_append, List.lookup_cons, hne]
      exact ih fun hmem => hnot (List.mem_cons_of_mem _ hmem)

/-! ### Progress -/

section Progress

variable (loads : Bytes → Option Json) (dumps : Json → Bytes) (drawn : Bytes) (config : ServerConfig) (package : DeploymentPackage)
variable (s₀ : Server)

/-- The first files of the order are written, and the others are what they were, as are the paths that were there. -/
structure Progress (k : Nat) (s : Server) : Prop where
  files : ∀ file ∈ writeOrder, s.files file =
    if file ∈ writeOrder.take k then newContent loads dumps drawn config s₀ file else s₀.files file
  resolve : s.resolve = s₀.resolve
  paths : ∀ path, s₀.paths path ≠ none → s.paths path = s₀.paths path

/-- A step that raises leaves the files that are written before it. -/
def Raised (e : DeploymentException) (_ : Mishaps) (s : Server) : Prop :=
  ∀ step, e = .step step → Progress loads dumps drawn config s₀ (position package step) s

/-- A part of a deployment from a place in the order to another. -/
def Steps {α : Type} (k : Nat) (m : Deployment α) (k' : Nat) : Prop :=
  m.Meets (fun _ s => Progress loads dumps drawn config s₀ k s) (fun _ _ s => Progress loads dumps drawn config s₀ k' s)
    (Raised loads dumps drawn config package s₀) (fun _ => True)

/-- The files are untouched. -/
structure Untouched (s : Server) : Prop where
  files : s.files = s₀.files
  resolve : s.resolve = s₀.resolve
  paths : ∀ path, s₀.paths path ≠ none → s.paths path = s₀.paths path

end Progress

section Steps

variable {loads : Bytes → Option Json} {dumps : Json → Bytes} {drawn : Bytes} {config : ServerConfig} {package : DeploymentPackage}
variable {s₀ s : Server} {k : Nat} {stamp : Text} {file : ServerFile} {content : Bytes}

theorem Untouched.progress (h : Untouched s₀ s) : Progress loads dumps drawn config s₀ 0 s :=
  ⟨fun file _ => (congrFun h.files file).trans (if_neg (List.not_mem_nil)).symm, h.resolve, h.paths⟩

theorem raised_of_position {step : Step} (hposition : position package step = k) (mishaps : Mishaps) (s : Server)
    (h : Progress loads dumps drawn config s₀ k s) : Raised loads dumps drawn config package s₀ (.step step) mishaps s := by
  rintro _ ⟨⟩
  rwa [hposition]

/-- A call that is not seen, of a step at a place in the order. -/
theorem steps_unseen {step : Step} (hposition : position package step = k) :
    Steps loads dumps drawn config package s₀ k (unseenCall (.step step)) k :=
  meets_unseenCall (raised_of_position hposition)

/-- The next file of the order is written. -/
theorem steps_writeBytes (hfile : writeOrder[k]? = some file) (hbefore : position package (.write file) = k)
    (hafter : position package (.cleanUp file) = k + 1) (hcontent : newContent loads dumps drawn config s₀ file = some content) :
    Steps loads dumps drawn config package s₀ k (writeBytes file content) (k + 1) := by
  refine meets_atomicReplace (fun s h => ⟨fun file' hmem => ?_, h.resolve, h.paths⟩) (raised_of_position hbefore) (raised_of_position hafter)
  have hwritten : (s.write file (some content)).files file' = if file' = file then some content else s.files file' :=
    Function.update_apply _ _ _ _
  rw [hwritten]
  by_cases heq : file' = file
  · rw [if_pos heq, if_pos ((mem_take_succ hfile).mpr (Or.inr heq)), heq, hcontent]
  · rw [if_neg heq, h.files file' hmem]
    refine if_congr ?_ rfl rfl
    rw [mem_take_succ hfile, or_iff_left heq]

/-- A file that is not of the order is written. -/
theorem steps_writeBeside (hfile : file ∉ writeOrder) (hbefore : position package (.write file) = k)
    (hafter : position package (.cleanUp file) = k) :
    Steps loads dumps drawn config package s₀ k (writeBytes file content) k := by
  refine meets_atomicReplace (fun s h => ⟨fun file' hmem => ?_, h.resolve, h.paths⟩) (raised_of_position hbefore) (raised_of_position hafter)
  exact (Function.update_of_ne (fun heq : file' = file => hfile (heq ▸ hmem)) _ _).trans (h.files file' hmem)

/-- The next file of the order is rendered and written. -/
theorem steps_writeText {ε : Type} {text : Except ε Text} (hfile : writeOrder[k]? = some file)
    (hbefore : position package (.write file) = k) (hafter : position package (.cleanUp file) = k + 1)
    (hcontent : newContent loads dumps drawn config s₀ file = text.toOption.map Text.toBytes) :
    Steps loads dumps drawn config package s₀ k (writeText file text) (k + 1) := by
  cases text with
  | error e =>
    exact Program.meets_bind (R := fun _ _ _ => False) (Program.meets_raise (raised_of_position hbefore)) fun _ _ _ h => h.elim
  | ok text =>
    refine Program.meets_bind (R := fun text' _ s => text' = text ∧ Progress loads dumps drawn config s₀ k s)
      (Program.meets_pure fun _ _ h => ⟨rfl, h⟩) fun text' => Program.meets_of_imp (fun _ _ h => h.1) ?_
    rintro rfl
    exact (steps_writeBytes hfile hbefore hafter hcontent).from fun _ _ h => h.2

theorem Steps.bind {α β : Type} {k₁ k₂ : Nat} {m : Deployment α} {f : α → Deployment β}
    (hm : Steps loads dumps drawn config package s₀ k m k₁) (hf : ∀ a, Steps loads dumps drawn config package s₀ k₁ (f a) k₂) :
    Steps loads dumps drawn config package s₀ k (m >>= f) k₂ := Program.meets_bind hm hf

/-! ### The steps of the provisioner -/

/-- The key that a deployment uses is the one that is there, or the one that is drawn. -/
theorem meets_ticketKey : (ticketKey drawn).Meets (fun _ s => Untouched s₀ s)
    (fun key _ s => key = (s₀.files .ticketKey).getD drawn ∧ Progress loads dumps drawn config s₀ 0 s)
    (Raised loads dumps drawn config package s₀) (fun _ => True) := by
  refine Program.meets_bind (Program.meets_query (Q := fun present _ s => present = s₀.files .ticketKey ∧
    Progress loads dumps drawn config s₀ 0 s) fun _ _ h => ⟨congrFun h.files .ticketKey, h.progress⟩) fun present => ?_
  refine Program.meets_of_imp (fun _ _ h => h.1) ?_
  rintro rfl
  cases hkey : s₀.files .ticketKey with
  | some key =>
    refine (Program.meets_bind (steps_unseen rfl) fun _ => Program.meets_bind (meets_require (fun _ _ h => h) (raised_of_position rfl)) fun _ =>
      Program.meets_pure fun _ _ h => ?_).from fun _ _ h => h.2
    exact ⟨rfl, h⟩
  | none =>
    refine (Program.meets_bind (steps_writeBeside (by decide) rfl rfl) fun _ => Program.meets_pure fun _ _ h => ?_).from fun _ _ h => h.2
    exact ⟨rfl, h⟩

theorem steps_installBalancing : Steps loads dumps drawn config package s₀ 3 (installBalancing content) 3 := by
  have hwrite : ∀ s (content : Option Bytes), Progress loads dumps drawn config s₀ 3 s →
      Progress loads dumps drawn config s₀ 3 (s.write .balancing content) := fun s content h =>
    ⟨fun file hmem => (Function.update_of_ne (fun heq : file = .balancing => absurd (heq ▸ hmem) (by decide)) _ _).trans (h.files file hmem),
      h.resolve, h.paths⟩
  refine Program.meets_bind (Program.meets_query (Q := fun _ _ s => Progress loads dumps drawn config s₀ 3 s) fun _ _ h => h) fun present => ?_
  refine Program.meets_when (fun _ => ?_) fun _ _ _ h => h
  refine Program.meets_bind (R := fun _ _ s => Progress loads dumps drawn config s₀ 3 s) ?_ fun _ => steps_unseen rfl
  refine Program.meets_operation_any (J := fun _ s => Progress loads dumps drawn config s₀ 3 s) ?_ (fun _ _ _ _ hstep => nomatch hstep)
    (fun mishaps s stop h => raised_of_position rfl mishaps _ (hwrite s _ h)) (fun _ _ _ => trivial)
  intro s _ s' h hstep
  obtain ⟨-, rfl⟩ := Prod.mk.inj (Except.ok.inj hstep)
  exact hwrite s _ h

theorem steps_syncBootstrap : Steps loads dumps drawn config package s₀ 3 (syncBootstrap loads dumps config) 4 := by
  refine Program.meets_bind (Program.meets_query (Q := fun content _ s => content = s₀.files .clientManifest ∧
    Progress loads dumps drawn config s₀ 3 s) fun _ s h => ⟨?_, h⟩) fun content => Program.meets_of_imp (fun _ _ h => h.1) ?_
  · rw [h.files .clientManifest (by decide), if_neg (by decide)]
  rintro rfl
  cases hcontent : bootstrapContent loads dumps config (s₀.files .clientManifest) with
  | none => exact (Program.meets_raise (raised_of_position rfl)).from fun _ _ h => h.2
  | some content =>
    have hnew : newContent loads dumps drawn config s₀ .clientManifest = some content := hcontent
    exact (steps_writeBytes rfl rfl rfl hnew).from fun _ _ h => h.2

theorem meets_installRuntimeFiles {runtime : RuntimePackage} :
    (installRuntimeFiles loads dumps drawn config runtime).Meets (fun _ s => Untouched s₀ s)
      (fun _ _ s => Progress loads dumps drawn config s₀ 4 s) (Raised loads dumps drawn config package s₀) (fun _ => True) := by
  refine Program.meets_bind (meets_unseenCall fun mishaps s h => raised_of_position rfl mishaps s h.progress) fun _ => ?_
  refine Program.meets_bind meets_ticketKey fun key => Program.meets_of_imp (fun _ _ h => h.1) ?_
  rintro rfl
  refine (?_ : Steps loads dumps drawn config package s₀ 0 _ 4).from fun _ _ h => h.2
  refine (steps_writeText rfl rfl rfl rfl).bind fun _ => (steps_writeText rfl rfl rfl rfl).bind fun _ => ?_
  refine (steps_writeText rfl rfl rfl rfl).bind fun _ => (steps_unseen rfl).bind fun _ => ?_
  refine steps_installBalancing.bind fun _ => steps_syncBootstrap.bind fun _ => (steps_unseen rfl).bind fun _ => ?_
  exact Program.meets_bind (Program.meets_pure fun _ _ h => h) fun text => steps_writeBeside (by decide) rfl rfl

theorem steps_writeSystemdUnits : Steps loads dumps drawn config package s₀ 4 (writeSystemdUnits config) 8 := by
  refine Program.meets_bind (R := fun _ _ s => Progress loads dumps drawn config s₀ 8 s) ?_ fun _ => steps_unseen rfl
  refine Program.meets_forM (I := fun before _ _ s => Progress loads dumps drawn config s₀ (4 + before.length) s) (fun _ _ h => h) ?_
    fun _ _ h => h
  intro before item after hsplit
  obtain ⟨hfile, hplace, hcontent⟩ := unit_place hsplit
  have hposition : 4 + unitNames.idxOf item.1 = 4 + before.length := by rw [hplace]
  have hafter : 5 + unitNames.idxOf item.1 = 4 + before.length + 1 := by omega
  refine Program.meets_bind (Program.meets_query (Q := fun _ _ s => Progress loads dumps drawn config s₀ (4 + before.length) s)
    fun _ _ h => h) fun dropIn => ?_
  refine Program.meets_bind (meets_require (fun _ _ h => h) (raised_of_position hposition)) fun _ => ?_
  rw [List.length_append, List.length_singleton, ← Nat.add_assoc]
  exact steps_writeBytes hfile hposition hafter (congrArg (Option.map Text.toBytes) hcontent)

/-- A staged release has a path of its own. -/
theorem meets_stageRelease {runtime : RuntimePackage} : (stageRelease runtime stamp).Meets (fun _ s => Untouched s₀ s)
    (fun _ _ s => Untouched s₀ s) (Raised loads dumps drawn config package s₀) (fun _ => True) := by
  have hraised : ∀ mishaps s, Untouched s₀ s → Raised loads dumps drawn config package s₀ (.step .stage) mishaps s :=
    fun mishaps s h => raised_of_position rfl mishaps s h.progress
  refine Program.meets_bind (meets_unseenCall hraised) fun _ => ?_
  refine Program.meets_bind (Program.meets_query (Q := fun present _ s => Untouched s₀ s ∧ present = (s.paths (releaseTarget runtime stamp)).isSome)
    fun _ _ h => ⟨h, rfl⟩) fun present => ?_
  refine Program.meets_bind (R := fun _ _ s => Untouched s₀ s ∧ s.paths (releaseTarget runtime stamp) = none)
    (meets_require (fun hcondition s h => ⟨h.1, ?_⟩) fun mishaps s h => hraised mishaps s h.1) fun _ => ?_
  · rw [h.2, Bool.not_eq_true', Option.isSome_eq_false_iff, Option.isNone_iff_eq_none] at hcondition
    exact hcondition
  refine Program.meets_bind (meets_unseenCall fun mishaps s h => hraised mishaps s h.1) fun _ => ?_
  refine Program.meets_bind (R := fun _ _ s => Untouched s₀ s)
    (meets_changeServer (fun s h => ⟨h.1.files, h.1.resolve, fun path hpath => ?_⟩) fun mishaps s h => hraised mishaps s h.1)
    fun _ => Program.meets_pure fun _ _ h => h
  have hne : path ≠ releaseTarget runtime stamp := by
    rintro rfl
    exact hpath ((h.1.paths _ hpath).symm.trans h.2)
  exact (Function.update_of_ne hne _ _).trans (h.1.paths path hpath)

/-- The rollback of the provisioner changes the link only. -/
theorem meets_provisionerRollback {I : Server → Prop} {E : DeploymentException → Mishaps → Server → Prop} {previous : Option Text}
    (hI : ∀ s current, I s → I (s.setCurrent current)) (hE : ∀ mishaps s, E .rollback mishaps s) :
    (provisionerRollback previous).Meets (fun _ s => I s) (fun _ _ s => I s) E (fun _ => True) := by
  cases previous with
  | none => exact Program.meets_bind (meets_unlinkCurrent (fun s h => hI s _ h) hE) fun _ => meets_unseenCall fun mishaps s _ => hE mishaps s
  | some target =>
    exact Program.meets_bind (meets_activateRelease (fun s h => hI s _ h) fun mishaps s _ => hE mishaps s) fun _ =>
      meets_unseenCall fun mishaps s _ => hE mishaps s

theorem meets_install {runtime : RuntimePackage} : (install loads dumps drawn stamp config runtime).Meets (fun _ s => Untouched s₀ s)
    (fun _ _ s => Progress loads dumps drawn config s₀ 8 s) (Raised loads dumps drawn config package s₀) (fun _ => True) := by
  have hprepare : ∀ mishaps s, Untouched s₀ s → Raised loads dumps drawn config package s₀ (.step .prepare) mishaps s :=
    fun mishaps s h => raised_of_position rfl mishaps s h.progress
  refine Program.meets_bind (meets_unseenCall hprepare) fun _ => Program.meets_bind (meets_require (fun _ _ h => h) hprepare) fun _ => ?_
  refine Program.meets_bind (meets_unseenCall hprepare) fun _ => Program.meets_bind meets_stageRelease fun target => ?_
  refine Program.meets_bind (meets_activateRelease (J := Untouched s₀) (fun s h => ⟨h.files, h.resolve, h.paths⟩)
    fun mishaps s h => raised_of_position rfl mishaps s h.progress) fun previous => ?_
  refine Program.meets_bind (R := fun _ _ s => Progress loads dumps drawn config s₀ 8 s) ?_ fun _ => Program.meets_pure fun _ _ h => h
  refine Program.meets_tryCatch (F := Raised loads dumps drawn config package s₀) ?_ fun e => ?_
  · refine Program.meets_bind meets_installRuntimeFiles fun _ => steps_writeSystemdUnits.bind fun _ => (steps_unseen rfl).bind fun _ => ?_
    exact (steps_unseen rfl).bind fun _ => (steps_unseen rfl).bind fun _ => steps_unseen rfl
  · refine Program.meets_bind (meets_provisionerRollback (I := fun s => Raised loads dumps drawn config package s₀ e [] s) ?_ ?_) fun _ =>
      Program.meets_raise fun _ _ h => h
    · exact fun s current h step he => ⟨(h step he).files, (h step he).resolve, (h step he).paths⟩
    · exact fun _ _ step he => nomatch he

theorem meets_installComponents : (installComponents loads dumps drawn stamp config package).Meets (fun _ s => s = s₀)
    (fun _ _ _ => True) (Raised loads dumps drawn config package s₀) (fun _ => True) := by
  have hstart : ∀ s, s = s₀ → Untouched s₀ s := by
    rintro s rfl
    exact ⟨rfl, rfl, fun _ _ => rfl⟩
  let k := if package.runtime.isSome then 8 else 0
  refine Program.meets_bind (R := fun _ _ s => Progress loads dumps drawn config s₀ k s) ?_ fun _ => ?_
  · cases hruntime : package.runtime with
    | none =>
      refine Program.meets_pure fun _ s h => ?_
      rw [show k = 0 by simp only [k, hruntime]; rfl]
      exact (hstart s h).progress
    | some runtime =>
      rw [show k = 8 by simp only [k, hruntime]; rfl]
      refine Program.meets_bind (Program.meets_bind ?_ fun _ => meets_install) fun _ => Program.meets_pure fun _ _ h => h
      exact (meets_unseenCall fun mishaps s h => raised_of_position rfl mishaps s h.progress).from fun _ s h => hstart s h
  · cases package.manager with
    | none => exact Program.meets_pure fun _ _ _ => trivial
    | some content =>
      exact Program.Meets.weaken (steps_writeBeside (by decide) rfl rfl) (fun _ _ h => h) (fun _ _ _ _ => trivial) (fun _ _ _ h => h)
        fun _ h => h

/-! ### The rollback -/

/-- What the link is set to in the end. -/
def restoredCurrent (s : Server) : CurrentRelease :=
  match currentTarget s with
  | some target => if s.paths target = some true then .link target else .absent
  | none => .absent

/-- The link is put back when it led straight to its release. -/
theorem restoredCurrent_eq_iff (s : Server) : restoredCurrent s = s.current ↔ LinkDirect s := by
  unfold restoredCurrent LinkDirect currentTarget
  cases s.current with
  | absent => exact iff_of_true rfl trivial
  | file => exact iff_of_false nofun not_false
  | directory => exact iff_of_false nofun not_false
  | link target =>
    dsimp only
    split
    · rename_i hpath
      constructor
      · intro heq
        rw [CurrentRelease.link.inj heq] at hpath ⊢
        exact ⟨rfl, hpath⟩
      · rintro ⟨heq, -⟩
        rw [heq]
    · rename_i hpath
      refine iff_of_false nofun ?_
      rintro ⟨heq, hdirectory⟩
      rw [heq] at hpath
      exact hpath hdirectory

section Rollback

variable (loads : Bytes → Option Json) (dumps : Json → Bytes) (drawn : Bytes) (config : ServerConfig) (s₀ : Server)

/-- A rollback leaves the first files of the order as they were written, and puts back the manager and the link. -/
structure RolledBack (k : Nat) (s : Server) : Prop where
  manager : s.files .manager = s₀.files .manager
  files : ∀ file ∈ writeOrder, s.files file =
    if file ∈ writeOrder.take k then newContent loads dumps drawn config s₀ file else s₀.files file
  current : s.current = restoredCurrent s₀

/-- How a deployment ends that raised and was rolled back. -/
def Ended (package : DeploymentPackage) (e : DeploymentException) (_ : Mishaps) (s : Server) : Prop :=
  ∀ step, e = .deployment (.step step) → RolledBack loads dumps drawn config s₀ (position package step) s

end Rollback

/-- A rollback restores the server but for the files that were written. -/
theorem RolledBack.restored_iff (h : RolledBack loads dumps drawn config s₀ k s) :
    Restored s₀ s ↔ LinkDirect s₀ ∧ ∀ file ∈ writeOrder.take k, s₀.files file = newContent loads dumps drawn config s₀ file := by
  constructor
  · intro hrestored
    refine ⟨(restoredCurrent_eq_iff s₀).mp (h.current.symm.trans hrestored.current), fun file hmem => ?_⟩
    have horder := List.mem_of_mem_take hmem
    rw [← hrestored.files file (List.mem_cons_of_mem _ horder), h.files file horder, if_pos hmem]
  · rintro ⟨hlink, hsame⟩
    refine ⟨h.current.trans ((restoredCurrent_eq_iff s₀).mpr hlink), fun file hmem => ?_⟩
    rcases List.mem_cons.mp hmem with rfl | horder
    · exact h.manager
    · rw [h.files file horder]
      split
      · rename_i hwritten
        exact (hsame file hwritten).symm
      · rfl

theorem meets_deploymentRollback {E : DeploymentException → Mishaps → Server → Prop} {e : DeploymentException}
    (hE : ∀ mishaps s, E .rollback mishaps s) (hreached : ∀ target, currentTarget s₀ = some target → s₀.paths target ≠ none) :
    (deploymentRollback (currentTarget s₀) (s₀.files .manager)).Meets (Raised loads dumps drawn config package s₀ e)
      (fun _ _ s => ∀ step, e = .step step → RolledBack loads dumps drawn config s₀ (position package step) s) E (fun _ => True) := by
  -- after the manager is put back
  let Back := fun s => ∀ step, e = .step step →
    Progress loads dumps drawn config s₀ (position package step) s ∧ s.files .manager = s₀.files .manager
  have hwrite : ∀ s, Raised loads dumps drawn config package s₀ e [] s → Back (s.write .manager (s₀.files .manager)) := by
    intro s h step he
    refine ⟨⟨fun file hmem => ?_, (h step he).resolve, (h step he).paths⟩, Function.update_self ServerFile.manager _ s.files⟩
    refine (Function.update_of_ne (fun heq : file = .manager => ?_) _ _).trans ((h step he).files file hmem)
    exact absurd (heq ▸ hmem) (by decide)
  have hcurrent : ∀ s current, Back s → restoredCurrent s₀ = current →
      ∀ step, e = .step step → RolledBack loads dumps drawn config s₀ (position package step) (s.setCurrent current) :=
    fun s current h hc step he => ⟨(h step he).2, (h step he).1.files, hc.symm⟩
  refine Program.meets_bind (R := fun _ _ s => Back s) ?_ fun _ => ?_
  · cases hmanager : s₀.files .manager with
    | none =>
      refine meets_changeServer (I := fun s => Raised loads dumps drawn config package s₀ e [] s) (fun s h => ?_) fun _ _ _ => hE _ _
      rw [← hmanager]
      exact hwrite s h
    | some content =>
      refine meets_atomicReplace (I := fun s => Raised loads dumps drawn config package s₀ e [] s) (fun s h => ?_) (fun _ _ _ => hE _ _)
        fun _ _ _ => hE _ _
      rw [← hmanager]
      exact hwrite s h
  · refine Program.meets_bind (Program.meets_query (Q := fun present _ s => Back s ∧
      ∀ step, e = .step step → present = decide ((currentTarget s₀).bind s₀.paths = some true)) fun _ s h => ⟨h, fun step he => ?_⟩)
      fun present => ?_
    · cases htarget : currentTarget s₀ with
      | none => rfl
      | some target =>
        simp only [Option.bind_some, (h step he).1.paths target (hreached target htarget)]
    · cases htarget : currentTarget s₀ with
      | none =>
        refine Program.meets_bind (meets_unlinkCurrent (fun s h => hcurrent s _ h.1 ?_) hE) fun _ => meets_unseenCall fun _ _ _ => hE _ _
        rw [restoredCurrent, htarget]
      | some target =>
        cases present with
        | true =>
          refine Program.meets_bind (meets_activateRelease (fun s h step he => hcurrent s _ h.1 ?_ step he) fun _ _ _ => hE _ _)
            fun _ => meets_unseenCall fun _ _ _ => hE _ _
          have hpath := h.2 step he
          rw [eq_comm, decide_eq_true_iff, Option.bind_some] at hpath
          rw [restoredCurrent, htarget]
          exact if_pos hpath
        | false =>
          refine Program.meets_bind (meets_unlinkCurrent (fun s h step he => hcurrent s _ h.1 ?_ step he) hE)
            fun _ => meets_unseenCall fun _ _ _ => hE _ _
          have hpath := h.2 step he
          rw [eq_comm, decide_eq_false_iff_not, Option.bind_some] at hpath
          rw [restoredCurrent, htarget]
          exact if_neg hpath

theorem meets_apply {operation : Operation} : (apply loads dumps drawn stamp config operation package).Meets (fun _ s => s = s₀)
    (fun _ _ _ => True) (Ended loads dumps drawn config s₀ package) (fun _ => True) := by
  have hrefused : ∀ mishaps s, Ended loads dumps drawn config s₀ package .refused mishaps s := fun _ _ _ he => nomatch he
  have hrollback : ∀ mishaps s, Ended loads dumps drawn config s₀ package .rollback mishaps s := fun _ _ _ he => nomatch he
  refine Program.meets_bind (Program.meets_query (Q := fun hasRuntime _ s => s = s₀ ∧ hasRuntime = (currentTarget s₀).isSome)
    fun _ s h => ⟨h, by rw [h]⟩) fun hasRuntime => Program.meets_of_imp (fun _ _ h => h.2) ?_
  rintro rfl
  refine Program.Meets.from (P := fun _ s => s = s₀) ?_ fun _ _ h => h.1
  refine Program.meets_bind (meets_require (fun _ _ h => h) fun _ _ _ => hrefused _ _) fun _ => ?_
  refine Program.meets_bind (meets_unseenCall fun _ _ _ => hrefused _ _) fun _ => ?_
  refine Program.meets_bind (Program.meets_query (Q := fun previous _ s => s = s₀ ∧ previous = currentTarget s₀)
    fun _ s h => ⟨h, by rw [h]⟩) fun previous => Program.meets_of_imp (fun _ _ h => h.2) ?_
  rintro rfl
  refine Program.Meets.from (P := fun _ s => s = s₀) ?_ fun _ _ h => h.1
  refine Program.meets_bind (Program.meets_query (Q := fun missing _ s => s = s₀ ∧ missing = decide ((currentTarget s₀).bind s₀.paths = none))
    fun _ s h => ⟨h, by rw [h]⟩) fun missing => Program.meets_of_imp (fun _ _ h => h.2) ?_
  rintro rfl
  refine Program.Meets.from (P := fun _ s => s = s₀) ?_ fun _ _ h => h.1
  refine Program.meets_bind (R := fun _ _ s => s = s₀ ∧ ∀ target, currentTarget s₀ = some target → s₀.paths target ≠ none)
    (meets_require (fun hcondition s h => ⟨h, fun target htarget hnone => ?_⟩) fun _ _ _ => hrefused _ _) fun _ =>
    Program.meets_of_imp (fun _ _ h => h.2) fun hreached => ?_
  · rw [htarget, Option.bind_some, hnone] at hcondition
    nomatch hcondition
  refine Program.Meets.from (P := fun _ s => s = s₀) ?_ fun _ _ h => h.1
  refine Program.meets_bind (Program.meets_query (Q := fun before _ s => s = s₀ ∧ before = s₀.files .manager)
    fun _ s h => ⟨h, by rw [h]⟩) fun before => Program.meets_of_imp (fun _ _ h => h.2) ?_
  rintro rfl
  refine Program.Meets.from (P := fun _ s => s = s₀) ?_ fun _ _ h => h.1
  refine Program.meets_bind (meets_unseenCall fun _ _ _ => hrefused _ _) fun _ => ?_
  refine Program.meets_tryCatch meets_installComponents fun e => ?_
  refine Program.meets_bind (meets_deploymentRollback hrollback hreached) fun _ => Program.meets_raise fun _ s h step he => ?_
  exact h step (DeploymentException.deployment.inj he)

end Steps

/-! ### Deployments of one package -/

/-- Whether a deployment was rolled back because a step raised, with a fact about the server. -/
def raisedAt (step : Step) (p : Server → Bool) : Execution Server DeploymentException Unit → Bool
  | .raised e _ s => decide (e = .deployment (.step step)) && p s
  | _ => false

theorem exists_raised {execution : Execution Server DeploymentException Unit} {step : Step} {p : Server → Bool}
    (h : raisedAt step p execution = true) :
    ∃ mishaps s, execution = .raised (.deployment (.step step)) mishaps s ∧ p s = true := by
  cases execution with
  | done a mishaps s => nomatch h
  | killed s => nomatch h
  | raised e mishaps s =>
    obtain ⟨he, hp⟩ := Bool.and_eq_true_iff.mp h
    rw [of_decide_eq_true he]
    exact ⟨mishaps, s, rfl, hp⟩

/-- A server without any release. -/
def freshServer : Server :=
  { files := fun _ => none, current := .absent, paths := fun _ => none, resolve := id, dropIns := fun _ => false }

/-- A server with a release. -/
def installedServer : Server :=
  (freshServer.addDirectory "/opt/scbl/releases/2.0.5-1".toList).setCurrent (.link "/opt/scbl/releases/2.0.5-1".toList)

def fullPackage : DeploymentPackage := { runtime := some { version := "2.0.6".toList, balancing := [] }, manager := some [1] }

def sampleServerConfig : ServerConfig := .new "sc6.example.com".toList "server-specific-network-secret".toList

def deploy (operation : Operation) (befalls : Mishaps) (s : Server) : Execution Server DeploymentException Unit :=
  (apply (fun _ => none) (fun _ => []) (List.replicate 32 7) "20260101000000".toList sampleServerConfig operation fullPackage).run befalls s

end RollbackAux

open RollbackAux

/-- A deployment that a step made fail has restored the server exactly when the link led straight to its release, and every file of the
configuration that is written before the step had held what was written. -/
theorem rollback_restores_iff (loads : Bytes → Option Json) (dumps : Json → Bytes) (drawn : Bytes) (stamp : Text) (config : ServerConfig)
    (operation : Operation) (package : DeploymentPackage) (step : Step) {mishaps mishaps' : Mishaps} {s s' : Server}
    (h : (apply loads dumps drawn stamp config operation package).run mishaps s = .raised (.deployment (.step step)) mishaps' s') :
    Restored s s' ↔
      LinkDirect s ∧ ∀ file ∈ writeOrder.take (position package step), s.files file = newContent loads dumps drawn config s file := by
  have hends : ((apply loads dumps drawn stamp config operation package).run mishaps s).Ends (fun _ _ _ => True)
      (Ended loads dumps drawn config s package) (fun _ => True) := meets_apply mishaps s rfl
  rw [h] at hends
  exact (hends step rfl).restored_iff

/-- A repair raises after its release was activated and before a file was written: the server is restored. -/
theorem rollback_restores_lookup :
    ∃ mishaps s, deploy .repair (List.replicate 10 none ++ [some (.fail 0)]) installedServer =
      .raised (.deployment (.step .lookup)) mishaps s ∧ Restored installedServer s := by
  have hdeploy : raisedAt .lookup (fun _ => true) (deploy .repair (List.replicate 10 none ++ [some (.fail 0)]) installedServer) = true := by
    decide +kernel
  obtain ⟨mishaps, s, hraised, -⟩ := exists_raised hdeploy
  exact ⟨mishaps, s, hraised, (rollback_restores_iff _ _ _ _ _ _ _ _ hraised).mpr ⟨⟨rfl, by decide +kernel⟩, fun _ hmem => nomatch hmem⟩⟩

/-- A first installation raises at its second file: the first one stays. -/
theorem rollback_restores_false :
    ∃ mishaps s, deploy .install (List.replicate 17 none ++ [some (.fail 0)]) freshServer =
      .raised (.deployment (.step (.write .easytier))) mishaps s ∧ ¬ Restored freshServer s := by
  have hdeploy : raisedAt (.write .easytier) (fun s => (s.files .runtimeEnv).isSome)
      (deploy .install (List.replicate 17 none ++ [some (.fail 0)]) freshServer) = true := by decide +kernel
  obtain ⟨mishaps, s, hraised, hfile⟩ := exists_raised hdeploy
  refine ⟨mishaps, s, hraised, fun hrestored => ?_⟩
  rw [hrestored.files .runtimeEnv (by decide)] at hfile
  nomatch hfile

end Scbl.Manager
