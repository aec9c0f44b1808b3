import Scbl.Lib.Program
import Scbl.Manager.NetworkBootstrap
import Scbl.Manager.Templates

/-!
# Deployments

`DeploymentManager.apply` of `scblctl/deployment.py` with `Provisioner.install_archive` of `scblctl/provision.py`: a package is installed
step by step, and what was there is put back when a step raises. The server holds the files that are written, the link to the current
release, and what there is under the paths of releases. A call that changes none of these is not seen but may raise; the commands of one
step count as one call, and so do the calls that verify, unpack and copy a package. A file takes the place of another at once; when that
raises, what is left beside it is removed, and this is not seen.
-/

namespace Scbl.Manager

open Scbl.Lib

/-- The files of the server that are written. -/
inductive ServerFile where
  | manager
  | runtimeEnv
  | easytier
  | dedicated
  | clientManifest
  | unit (name : Text)
  | ticketKey
  | balancing
  | waitScript
  deriving DecidableEq, Repr

/-- What there is under the path of the current release. -/
inductive CurrentRelease where
  | absent
  | link (target : Text)
  | file
  | directory
  deriving DecidableEq, Repr

structure Server where
  files : ServerFile → Option Bytes
  current : CurrentRelease
  /-- Whether there is a directory under a path; nothing where there is neither that nor another file. -/
  paths : Text → Option Bool
  /-- The path that a link leads to in the end. -/
  resolve : Text → Text
  /-- Whether a unit has configuration files beside it. -/
  dropIns : Text → Bool

namespace Server

def write (s : Server) (file : ServerFile) (content : Option Bytes) : Server :=
  { s with files := Function.update s.files file content }

def setCurrent (s : Server) (current : CurrentRelease) : Server := { s with current }

def addDirectory (s : Server) (path : Text) : Server := { s with paths := Function.update s.paths path (some true) }

end Server

/-- The steps of a deployment, by which its exceptions are told apart. -/
inductive Step where
  | prepare
  | stage
  | activate
  | lookup
  | readTicketKey
  | write (file : ServerFile)
  | cleanUp (file : ServerFile)
  | own (file : ServerFile)
  | dropIn (unit : Text)
  | reload
  | firewall
  | enable
  | restart
  | health
  deriving DecidableEq, Repr

/-- What is raised: by what comes before the deployment, by one of its steps, by a rollback, or for a deployment that was rolled back. -/
inductive DeploymentException where
  | refused
  | step (step : Step)
  | rollback
  | deployment (cause : DeploymentException)
  deriving DecidableEq, Repr

abbrev Deployment := Program Server DeploymentException

/-- A call that changes nothing that is seen. -/
def unseenCall (e : DeploymentException) : Deployment Unit := .operation e (fun _ s => s) (fun s => .ok ((), s))

/-- A call that changes the server at once. -/
def changeServer (e : DeploymentException) (f : Server → Server) : Deployment Unit := .operation e (fun _ s => s) (fun s => .ok ((), f s))

/-- Raise unless a condition holds. -/
def require (e : DeploymentException) (condition : Bool) : Deployment Unit := if condition then pure () else .raise e

/-- `_atomic_write`, with what it raises before the file is there and after. -/
def atomicReplace (before after : DeploymentException) (file : ServerFile) (content : Bytes) : Deployment Unit := do
  unseenCall before
  changeServer before (fun s => s.write file (some content))
  unseenCall after

def writeBytes (file : ServerFile) (content : Bytes) : Deployment Unit :=
  atomicReplace (.step (.write file)) (.step (.cleanUp file)) file content

/-- `_atomic_write_text`, of a text that may not be rendered. -/
def writeText {ε : Type} (file : ServerFile) (text : Except ε Text) : Deployment Unit := do
  let text ← .ofExcept (text.mapError (fun _ => .step (.write file)))
  writeBytes file text.toBytes

/-! ## Releases -/

/-- What is installed: the version of the runtime package, and its `mp_balancing.ini`. -/
structure RuntimePackage where
  version : Text
  balancing : Bytes
  deriving DecidableEq, Repr

/-- The directory of a release, which has the time in its name. -/
def releaseTarget (runtime : RuntimePackage) (stamp : Text) : Text := "/opt/scbl/releases/".toList ++ runtime.version ++ ['-'] ++ stamp

def stageRelease (runtime : RuntimePackage) (stamp : Text) : Deployment Text := do
  unseenCall (.step .stage)
  let target := releaseTarget runtime stamp
  let present ← .query (fun s => (s.paths target).isSome)
  require (.step .stage) (!present)
  unseenCall (.step .stage)
  changeServer (.step .stage) (fun s => s.addDirectory target)
  pure target

/-- Where the link to the current release leads to. -/
def currentTarget (s : Server) : Option Text :=
  match s.current with
  | .link target => some (s.resolve target)
  | _ => none

/-- The link is set to a release, and where it led to before is returned. -/
def activateRelease (e : DeploymentException) (target : Text) : Deployment (Option Text) := do
  let present ← .query (fun s => decide (s.paths target = some true))
  require e present
  let previous ← .query currentTarget
  let occupied ← .query (fun s => decide (s.current = .file ∨ s.current = .directory))
  require e (!occupied)
  unseenCall e
  changeServer e (fun s => s.setCurrent (.link target))
  pure previous

/-- `unlink` of the link, which may be missing. -/
def unlinkCurrent : Deployment Unit :=
  .operation .rollback (fun _ s => s) (fun s => if s.current = .directory then .error .rollback else .ok ((), s.setCurrent .absent))

/-! ## The provisioner -/

section Provisioner

-- What `json` makes of a manifest, the random key that is drawn when there is none, and the time in the name of the release.
variable (loads : Bytes → Option Json) (dumps : Json → Bytes) (drawn : Bytes) (stamp : Text)

/-- The key is read, or drawn and written. -/
def ticketKey : Deployment Bytes := do
  let present ← .query (fun s => s.files .ticketKey)
  match present with
  | some key => do
    unseenCall (.step .readTicketKey)
    require (.step .readTicketKey) (key.length = 32)
    pure key
  | none => do
    writeBytes .ticketKey drawn
    pure drawn

/-- The file is copied where there is none, for which a first part of it may be there when the copy raises. -/
def installBalancing (content : Bytes) : Deployment Unit := do
  let present ← .query (fun s => (s.files .balancing).isSome)
  Program.when (!present) (do
    .operation (.step (.write .balancing)) (fun stop s => s.write .balancing (some (content.take stop)))
      (fun s => .ok ((), s.write .balancing (some content)))
    unseenCall (.step (.own .balancing)))

/-- `DEPLOYMENT_PATHS.data` and the place of the manifest below it. -/
def clientManifestPath : Text := dataPath ++ "/client-updates/client_update_manifest.json".toList

/-- The manifest of the client updates with the network bootstrap, if it can be read. -/
def bootstrapContent (config : ServerConfig) (content : Option Bytes) : Option Bytes :=
  match content with
  | none => (syncedManifest clientManifestPath config none).toOption.map dumps
  | some content => (loads content).bind (fun raw => (syncedManifest clientManifestPath config (some raw)).toOption.map dumps)

def syncBootstrap (config : ServerConfig) : Deployment Unit := do
  let content ← .query (fun s => s.files .clientManifest)
  match bootstrapContent loads dumps config content with
  | some content => writeBytes .clientManifest content
  | none => .raise (.step (.write .clientManifest))

def installRuntimeFiles (config : ServerConfig) (runtime : RuntimePackage) : Deployment Unit := do
  unseenCall (.step .lookup)
  let key ← ticketKey drawn
  writeText .runtimeEnv (renderRuntimeEnv config managerVersion)
  writeText .easytier (.ok (renderEasytierConfig config) : Except ValueError Text)
  writeText .dedicated (renderDedicatedConfig config (some key) drawn)
  unseenCall (.step (.own .dedicated))
  installBalancing runtime.balancing
  syncBootstrap loads dumps config
  unseenCall (.step (.own .clientManifest))
  writeText .waitScript (.ok waitScbl0 : Except ValueError Text)

/-- A unit is written unless it has configuration files beside it that are not known. -/
def writeSystemdUnit (item : Text × Text) : Deployment Unit := do
  let dropIn ← .query (fun s => s.dropIns item.1)
  require (.step (.dropIn item.1)) (!dropIn)
  writeBytes (.unit item.1) (Text.toBytes item.2)

def writeSystemdUnits (config : ServerConfig) : Deployment Unit := do
  (renderSystemdUnits config).forM writeSystemdUnit
  unseenCall (.step .reload)

def startAndVerify : Deployment Unit := do
  unseenCall (.step .enable)
  unseenCall (.step .restart)
  unseenCall (.step .health)

/-- `Provisioner._rollback`, after which the services are disabled or started again. -/
def provisionerRollback (previous : Option Text) : Deployment Unit :=
  match previous with
  | none => do
    unlinkCurrent
    unseenCall .rollback
  | some previous => do
    let _ ← activateRelease .rollback previous
    unseenCall .rollback

def install (config : ServerConfig) (runtime : RuntimePackage) : Deployment Text := do
  unseenCall (.step .prepare)
  require (.step .prepare) (match config.validate with | .ok [] => true | _ => false)
  unseenCall (.step .prepare)
  let target ← stageRelease runtime stamp
  let previous ← activateRelease (.step .activate) target
  Program.tryCatch
    (do
      installRuntimeFiles loads dumps drawn config runtime
      writeSystemdUnits config
      unseenCall (.step .firewall)
      startAndVerify)
    (fun e => do
      provisionerRollback previous
      .raise e)
  pure target

def installArchive (config : ServerConfig) (runtime : RuntimePackage) : Deployment Text := do
  unseenCall (.step .prepare)
  install loads dumps drawn stamp config runtime

/-! ## The deployment -/

/-- A package that is verified: the runtime and the manager that are in it. -/
structure DeploymentPackage where
  runtime : Option RuntimePackage
  manager : Option Bytes
  deriving DecidableEq, Repr

/-- The manager is put back, or removed where there was none. -/
def restoreManager (managerBefore : Option Bytes) : Deployment Unit :=
  match managerBefore with
  | none => changeServer .rollback (fun s => s.write .manager none)
  | some content => atomicReplace .rollback .rollback .manager content

/-- The link is set to the previous release, or removed where there was none. -/
def restoreCurrent (previousRuntime : Option Text) : Deployment Unit := do
  let present ← .query (fun s => decide (previousRuntime.bind s.paths = some true))
  match previousRuntime, present with
  | some previous, true => do
    let _ ← activateRelease .rollback previous
    unseenCall .rollback
  | _, _ => do
    unlinkCurrent
    unseenCall .rollback

/-- `DeploymentManager._rollback`, after which the services are started again or disabled. -/
def deploymentRollback (previousRuntime : Option Text) (managerBefore : Option Bytes) : Deployment Unit := do
  restoreManager managerBefore
  restoreCurrent previousRuntime

def deployRuntime (config : ServerConfig) : Option RuntimePackage → Deployment Unit
  | some runtime => do
    let _ ← installArchive loads dumps drawn stamp config runtime
    pure ()
  | none => pure ()

def deployManager : Option Bytes → Deployment Unit
  | some content => writeBytes .manager content
  | none => pure ()

/-- The components of the package are installed. -/
def installComponents (config : ServerConfig) (package : DeploymentPackage) : Deployment Unit := do
  deployRuntime loads dumps drawn stamp config package.runtime
  deployManager package.manager

inductive Operation where
  | install
  | repair
  | update
  deriving DecidableEq, Repr

/-- A package that is verified is deployed; before that its versions and the players online are checked, and it is unpacked. -/
def apply (config : ServerConfig) (operation : Operation) (package : DeploymentPackage) : Deployment Unit := do
  let hasRuntime ← .query (fun s => (currentTarget s).isSome)
  require .refused (hasRuntime != (operation = .install))
  unseenCall .refused
  let previousRuntime ← .query currentTarget
  let missing ← .query (fun s => decide (previousRuntime.bind s.paths = none))
  require .refused (!(hasRuntime && missing))
  let managerBefore ← .query (fun s => s.files .manager)
  unseenCall .refused
  Program.tryCatch (installComponents loads dumps drawn stamp config package)
    (fun e => do
      deploymentRollback previousRuntime managerBefore
      .raise (.deployment e))

end Provisioner

end Scbl.Manager
